/-!
From a decimal to a floating point number in one multiplication or division by a power of ten.  The
result is exact for the numbers that people write, and may be off by one in the last place for
others.
-/

namespace Mailroom.Decimal

def powerOfTen (n : Nat) : Float := Float.ofScientific 1 false n

/-- Divide by 10^308 until the exponent is one that a number can have. -/
def shrink : (steps : Nat) → Float → Int → Float × Int
  | 0, x, exponent => (x, exponent)
  | steps + 1, x, exponent =>
      if exponent < -308 ∧ x != 0.0 then shrink steps (x / powerOfTen 308) (exponent + 308)
      else (x, exponent)

/-- The number `significand * 10 ^ exponent`; none when it is too large. -/
def approximate? (negative : Bool) (significand : UInt64) (exponent : Int) : Option Float :=
  let signed (x : Float) : Float := if negative then -x else x
  let x := significand.toFloat
  if exponent > 308 then (if x == 0.0 then some (signed 0.0) else none)
  else if exponent ≥ 0 then
    let y := x * powerOfTen exponent.toNat
    if y.isInf then none else some (signed y)
  else
    let (y, rest) := shrink ((-exponent).toNat / 308 + 1) x exponent
    if rest < -308 then some (signed y)
    else some (signed (y / powerOfTen (-rest).toNat))

end Mailroom.Decimal
