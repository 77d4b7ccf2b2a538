/-!
Hexadecimal digits.  Main statements: every value below sixteen is read back from its digit, and a
number from enough of its digits.
-/

namespace Mailroom.Text

/-- The digit of a value below sixteen, in lower case. -/
def hexDigit (n : Nat) : Char :=
  if n < 10 then Char.ofNat (48 + n) else Char.ofNat (87 + n)

def hexValue? (c : Char) : Option Nat :=
  let n := c.toNat
  if 48 ≤ n ∧ n ≤ 57 then some (n - 48)
  else if 97 ≤ n ∧ n ≤ 102 then some (n - 87)
  else if 65 ≤ n ∧ n ≤ 70 then some (n - 55)
  else none

/-- Exactly `count` digits of `n`, the most significant first. -/
def hexDigits (count n : Nat) : List Char :=
  match count with
  | 0 => []
  | count + 1 => hexDigits count (n / 16) ++ [hexDigit (n % 16)]

/-- The digits of `n` without leading zeros; zero has one digit. -/
def hexOfNat (n : Nat) : String := String.ofList (Nat.toDigits 16 n)

/-- The value of a run of digits, and nothing else. -/
def hexNumber? (cs : List Char) : Option Nat :=
  cs.foldl (fun acc c => do
    let n ← acc
    let d ← hexValue? c
    return n * 16 + d) (some 0)

/-- Two digits a byte. -/
def hexOfBytes (bytes : List UInt8) : String :=
  String.ofList (bytes.flatMap fun b => hexDigits 2 b.toNat)

theorem hexDigit_below : ∀ n : Fin 16, hexValue? (hexDigit n) = some n.val := by decide

theorem hexValue?_hexDigit {n : Nat} (hn : n < 16) : hexValue? (hexDigit n) = some n :=
  hexDigit_below ⟨n, hn⟩

@[simp] theorem length_hexDigits (count n : Nat) : (hexDigits count n).length = count := by
  induction count generalizing n with
  | zero => rfl
  | succ count ih => simp [hexDigits, ih]

theorem length_hexOfBytes (bytes : List UInt8) : (hexOfBytes bytes).length = 2 * bytes.length := by
  simp [hexOfBytes, List.length_flatMap, List.map_const', Nat.mul_comm]

theorem isAlphanum_of_mem_hexDigits {count n : Nat} {c : Char} (hc : c ∈ hexDigits count n) :
    c.isAlphanum = true := by
  have hdigit : ∀ d : Fin 16, (hexDigit d).isAlphanum = true := by decide
  induction count generalizing n with
  | zero => cases hc
  | succ count ih =>
      rcases List.mem_append.1 hc with hc | hc
      · exact ih hc
      · rw [List.mem_singleton.1 hc]
        exact hdigit ⟨n % 16, Nat.mod_lt n (by decide)⟩

theorem isAlphanum_of_mem_hexOfBytes {bytes : List UInt8} {c : Char}
    (hc : c ∈ (hexOfBytes bytes).toList) : c.isAlphanum = true := by
  rw [hexOfBytes, String.toList_ofList] at hc
  obtain ⟨b, -, hb⟩ := List.mem_flatMap.1 hc
  exact isAlphanum_of_mem_hexDigits hb

theorem hexNumber?_append_digit (cs : List Char) {c : Char} {d : Nat} (hc : hexValue? c = some d) :
    hexNumber? (cs ++ [c]) = (hexNumber? cs).map fun n => n * 16 + d := by
  simp only [hexNumber?, List.foldl_append, List.foldl_cons, List.foldl_nil, hc]
  cases cs.foldl _ (some 0) <;> rfl

theorem hexNumber?_hexDigits (count n : Nat) :
    hexNumber? (hexDigits count n) = some (n % Nat.pow 16 count) := by
  induction count generalizing n with
  | zero => simp [hexDigits, hexNumber?, Nat.mod_one]
  | succ count ih =>
      have hdigit : hexValue? (hexDigit (n % 16)) = some (n % 16) :=
        hexValue?_hexDigit (Nat.mod_lt n (by decide))
      have hvalue : n / 16 % Nat.pow 16 count * 16 + n % 16 = n % Nat.pow 16 (count + 1) := by
        rw [Nat.pow_eq, Nat.pow_eq, Nat.pow_succ', Nat.mod_mul]
        omega
      rw [hexDigits, hexNumber?_append_digit _ hdigit, ih, Option.map_some, hvalue]

theorem hexDigits_injective {count m n : Nat} (hm : m < Nat.pow 16 count)
    (hn : n < Nat.pow 16 count) (h : hexDigits count m = hexDigits count n) : m = n := by
  have hread := congrArg hexNumber? h
  rw [hexNumber?_hexDigits, hexNumber?_hexDigits, Nat.mod_eq_of_lt hm, Nat.mod_eq_of_lt hn] at hread
  exact Option.some.inj hread

theorem hexOfBytes_injective {xs ys : List UInt8} (h : hexOfBytes xs = hexOfBytes ys) : xs = ys := by
  have hdigits : xs.flatMap (fun b => hexDigits 2 b.toNat) =
      ys.flatMap (fun b => hexDigits 2 b.toNat) := String.ofList_inj.1 h
  induction xs generalizing ys with
  | nil =>
      cases ys with
      | nil => rfl
      | cons y ys => cases congrArg List.length hdigits
  | cons x xs ih =>
      cases ys with
      | nil => cases congrArg List.length hdigits
      | cons y ys =>
          rw [List.flatMap_cons, List.flatMap_cons] at hdigits
          obtain ⟨hfirst, hrest⟩ := List.append_inj hdigits (by simp)
          have hbyte := hexDigits_injective x.toNat_lt y.toNat_lt hfirst
          rw [UInt8.toNat_inj.1 hbyte, ih (String.ofList_inj.2 hrest) hrest]

end Mailroom.Text
