/-!
Buckets that lie side by side, each as wide as its weight.  Main statement: a point falls into one
of them exactly if it lies below their total width.
-/

namespace Mailroom

def totalWidth (widths : List Nat) : Nat := widths.foldr (· + ·) 0

/-- The place of the bucket that a point falls into. -/
def bucketOf : List Nat → Nat → Option Nat
  | [], _ => none
  | width :: rest, point =>
      if point < width then some 0 else (bucketOf rest (point - width)).map (· + 1)

theorem bucketOf_eq_none_iff (widths : List Nat) (point : Nat) :
    bucketOf widths point = none ↔ totalWidth widths ≤ point := by
  induction widths generalizing point with
  | nil => simp [bucketOf, totalWidth]
  | cons width rest ih =>
      have htotal : totalWidth (width :: rest) = width + totalWidth rest := rfl
      by_cases h : point < width
      · simp only [bucketOf, h, if_true, htotal]
        constructor
        · intro hsome
          cases hsome
        · omega
      · simp only [bucketOf, h, if_false, Option.map_eq_none_iff, ih, htotal]
        omega

end Mailroom
