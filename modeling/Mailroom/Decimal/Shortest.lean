/-!
The shortest decimal text of a binary floating point number: of all decimals that are nearer to it
than to any other number, the one with the fewest digits, and of those the nearest.
-/

namespace Mailroom.Decimal

/-- A decimal number: digits and the power of ten that their last place counts. -/
structure Scaled where
  digits : Nat
  exponent : Int
deriving DecidableEq, Repr

/-- A positive finite number as a mantissa and a power of two, from its bits. -/
def binaryParts (bits : UInt64) : Nat × Int :=
  let fraction := (bits &&& 0xFFFFFFFFFFFFF).toNat
  let exponent := ((bits >>> 52) &&& 0x7FF).toNat
  if exponent = 0 then (fraction, -1074) else (fraction + Nat.pow 2 52, Int.ofNat exponent - 1075)

/-- Whether the gap below a number is half the gap above it. -/
def isAtPower (mantissa : Nat) (power : Int) : Bool := mantissa == Nat.pow 2 52 && power > -1074

/-- A rational number above zero in quarters of a unit of the last binary place. -/
structure Scale where
  factor : Nat
  divisor : Nat

/-- The factor and divisor that turn quarters into multiples of `10 ^ exponent`. -/
def scaleFor (power exponent : Int) : Scale :=
  let quarter := power - 2
  ⟨Nat.pow 2 quarter.toNat * Nat.pow 10 (-exponent).toNat,
    Nat.pow 2 (-quarter).toNat * Nat.pow 10 exponent.toNat⟩

/-- The decimal on the grid of `10 ^ exponent` that reads back as the number, if there is one. -/
def onGrid (mantissa : Nat) (power exponent : Int) : Option Scaled :=
  let scale := scaleFor power exponent
  let middle := 4 * mantissa * scale.factor
  let low := (4 * mantissa - (if isAtPower mantissa power then 1 else 2)) * scale.factor
  let high := (4 * mantissa + 2) * scale.factor
  let inside (d : Nat) : Bool :=
    if mantissa % 2 = 0 then low ≤ d * scale.divisor && d * scale.divisor ≤ high
    else low < d * scale.divisor && d * scale.divisor < high
  let below := middle / scale.divisor
  let above := below + 1
  let toBelow := middle - below * scale.divisor
  let toAbove := above * scale.divisor - middle
  if inside below ∧ inside above then
    let isBelow := toBelow < toAbove ∨ (toBelow = toAbove ∧ below % 2 = 0)
    some ⟨if isBelow then below else above, exponent⟩
  else if inside below then some ⟨below, exponent⟩
  else if inside above then some ⟨above, exponent⟩
  else none

def shortest (mantissa : Nat) (power : Int) : Scaled :=
  let top := ((Int.ofNat mantissa.log2 + power) * 30103).fdiv 100000 + 1
  ((List.range 20).findSome? fun i => onGrid mantissa power (top - Int.ofNat i)).getD ⟨0, 0⟩

/-- Where a format writes a number out and where it uses an exponent. -/
structure Format where
  lowestPlain : Int
  highestPlain : Int
  exponentMark : String
  positiveSign : String
  wholeSuffix : String

def Format.text (format : Format) (x : Scaled) : String :=
  let ds := Nat.toDigits 10 x.digits
  let count := Int.ofNat ds.length
  let lead := count - 1 + x.exponent
  if format.lowestPlain ≤ lead ∧ lead ≤ format.highestPlain then
    if 0 ≤ x.exponent then
      String.ofList (ds ++ List.replicate x.exponent.toNat '0') ++ format.wholeSuffix
    else if 0 ≤ lead then
      let whole := (lead + 1).toNat
      String.ofList (ds.take whole ++ '.' :: ds.drop whole)
    else
      String.ofList ('0' :: '.' :: (List.replicate (-lead - 1).toNat '0' ++ ds))
  else
    let mantissa := match ds with
      | [d] => [d]
      | d :: rest => d :: '.' :: rest
      | [] => []
    String.ofList mantissa ++ format.exponentMark ++
      (if lead < 0 then "-" else format.positiveSign) ++ toString lead.natAbs

/-- The text of a finite number, its sign first. -/
def Format.floatText (format : Format) (x : Float) : String :=
  let bits := x.toBits
  let sign := if bits >>> 63 = 1 then "-" else ""
  let (mantissa, power) := binaryParts (bits &&& 0x7FFFFFFFFFFFFFFF)
  if mantissa = 0 then sign ++ "0" ++ format.wholeSuffix
  else sign ++ format.text (shortest mantissa power)

end Mailroom.Decimal
