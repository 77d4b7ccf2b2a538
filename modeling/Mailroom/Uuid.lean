import Mailroom.Text.Hex

/-!
Identifiers of 128 bits.  They are written in five groups of digits with hyphens between them, and
read in that form, without hyphens, in braces, or as a URN, in letters of either case.  Main
statement: no two identifiers are written alike.
-/

namespace Mailroom

/-- An identifier, as the number that its digits spell. -/
structure Uuid where
  number : Nat
deriving DecidableEq, Repr, Inhabited

namespace Uuid

def zero : Uuid := ⟨0⟩

/-- How many digits an identifier has: 32, or more if it is wider than 128 bits. -/
def width (id : Uuid) : Nat := max 32 (id.number.log2 / 4 + 1)

def digits (id : Uuid) : List Char := Text.hexDigits id.width id.number

/-- Five groups of digits, joined by hyphens. -/
def grouped (ds : List Char) : List Char :=
  ds.take 8 ++ '-' :: (ds.drop 8).take 4 ++ '-' :: (ds.drop 12).take 4 ++
    '-' :: (ds.drop 16).take 4 ++ '-' :: ds.drop 20

def display (id : Uuid) : String := String.ofList (grouped id.digits)

def ofGroups? (cs : List Char) : Option Uuid :=
  let hyphenAt (i : Nat) : Bool := cs[i]? == some '-'
  if cs.length = 36 ∧ hyphenAt 8 ∧ hyphenAt 13 ∧ hyphenAt 18 ∧ hyphenAt 23 then
    (Text.hexNumber? (cs.take 8 ++ (cs.drop 9).take 4 ++ (cs.drop 14).take 4 ++
      (cs.drop 19).take 4 ++ cs.drop 24)).map Uuid.mk
  else none

/-- Read an identifier in any of its four forms. -/
def parse? (text : String) : Option Uuid :=
  let cs := text.toList
  if cs.length = 32 then (Text.hexNumber? cs).map Uuid.mk
  else if cs.length = 38 ∧ cs.head? = some '\x7b' ∧ cs.getLast? = some '\x7d' then
    ofGroups? ((cs.drop 1).dropLast)
  else if cs.length = 45 ∧ (cs.take 9).map Char.toLower = "urn:uuid:".toList then
    ofGroups? (cs.drop 9)
  else ofGroups? cs

def version (id : Uuid) : Nat := id.number >>> 76 % 16

/-- The identifier that is given out after `serial` others; it is of version 7. -/
def issued (serial : Nat) : Uuid := ⟨7 <<< 76 + 2 <<< 62 + serial⟩

theorem issued_injective {m n : Nat} (h : issued m = issued n) : m = n := by
  simp only [issued, Uuid.mk.injEq] at h
  omega

theorem number_lt (id : Uuid) : id.number < Nat.pow 16 id.width := by
  have hlog : id.number < 2 ^ (id.number.log2 + 1) := Nat.lt_log2_self
  have hwidth : id.number.log2 + 1 ≤ 4 * id.width := by
    simp only [width]
    omega
  calc id.number < 2 ^ (id.number.log2 + 1) := hlog
    _ ≤ 2 ^ (4 * id.width) := Nat.pow_le_pow_right (by decide) hwidth
    _ = Nat.pow 16 id.width := by rw [Nat.pow_mul, Nat.pow_eq]

theorem digits_injective {a b : Uuid} (h : a.digits = b.digits) : a = b := by
  have hwidth : a.width = b.width := by
    simpa [digits] using congrArg List.length h
  have ha := a.number_lt
  simp only [digits, hwidth] at h
  rw [hwidth] at ha
  have hnumber := Text.hexDigits_injective ha b.number_lt h
  cases a
  cases b
  simp_all

theorem grouped_injective {ds es : List Char} (hlength : ds.length = es.length)
    (h : grouped ds = grouped es) : ds = es := by
  have hgroup (n k : Nat) : ((ds.drop n).take k).length = ((es.drop n).take k).length := by
    simp [hlength]
  have hjoin (xs : List Char) (n : Nat) : (xs.drop n).take 4 ++ xs.drop (n + 4) = xs.drop n := by
    rw [← List.drop_drop, List.take_append_drop]
  simp only [grouped, List.append_assoc, List.cons_append] at h
  obtain ⟨h₁, h⟩ := List.append_inj h (by simpa using hgroup 0 8)
  obtain ⟨h₂, h⟩ := List.append_inj (List.cons.inj h).2 (hgroup 8 4)
  obtain ⟨h₃, h⟩ := List.append_inj (List.cons.inj h).2 (hgroup 12 4)
  obtain ⟨h₄, h⟩ := List.append_inj (List.cons.inj h).2 (hgroup 16 4)
  have h₁₆ : ds.drop 16 = es.drop 16 := by
    rw [← hjoin ds, ← hjoin es, h₄, (List.cons.inj h).2]
  have h₁₂ : ds.drop 12 = es.drop 12 := by rw [← hjoin ds, ← hjoin es, h₃, h₁₆]
  have h₈ : ds.drop 8 = es.drop 8 := by rw [← hjoin ds, ← hjoin es, h₂, h₁₂]
  rw [← List.take_append_drop 8 ds, ← List.take_append_drop 8 es, h₁, h₈]

theorem length_grouped {ds : List Char} (h : 20 ≤ ds.length) :
    (grouped ds).length = ds.length + 4 := by
  simp only [grouped, List.length_append, List.length_cons, List.length_take, List.length_drop]
  omega

theorem display_injective {a b : Uuid} (h : a.display = b.display) : a = b := by
  have hgrouped : grouped a.digits = grouped b.digits := by
    simpa [display, String.ofList_inj] using h
  have hlong (id : Uuid) : 20 ≤ id.digits.length := by
    simp only [digits, Text.length_hexDigits, width]
    omega
  have hlength := congrArg List.length hgrouped
  rw [length_grouped (hlong a), length_grouped (hlong b)] at hlength
  exact digits_injective (grouped_injective (by omega) hgrouped)

end Uuid

end Mailroom
