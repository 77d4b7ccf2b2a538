import Mailroom.Settings.Toml.Basic
import Mailroom.Text.Hex

/-!
Numbers as TOML writes them.
-/

namespace Mailroom.Toml

/-- Digits with single underscores between them; the digits alone are given. -/
def underscored? (isDigit : Char → Bool) : List Char → Option (List Char)
  | [] => none
  | [c] => if isDigit c then some [c] else none
  | c :: '_' :: rest => if isDigit c then (underscored? isDigit rest).map (c :: ·) else none
  | c :: rest => if isDigit c then (underscored? isDigit rest).map (c :: ·) else none

def inBase (base : Nat) (ds : List Char) : Nat :=
  ds.foldl (fun n c => n * base + (Text.hexValue? c).getD 0) 0

def wholeNumber? (cs : List Char) : Option Toml := do
  let based (base : Nat) (ok : Char → Bool) (ds : List Char) : Option Int :=
    (underscored? ok ds).map fun ds => Int.ofNat (inBase base ds)
  let n ← match cs with
    | '0' :: 'x' :: ds => based 16 (fun c => (Text.hexValue? c).isSome) ds
    | '0' :: 'o' :: ds => based 8 (fun c => '0' ≤ c && c ≤ '7') ds
    | '0' :: 'b' :: ds => based 2 (fun c => c == '0' || c == '1') ds
    | _ =>
        let (negative, ds) := match cs with
          | '-' :: ds => (true, ds)
          | '+' :: ds => (false, ds)
          | ds => (false, ds)
        if ds.head? = some '0' ∧ ds.length > 1 then none
        else (based 10 Char.isDigit ds).map fun n => if negative then -n else n
  if -9223372036854775808 ≤ n ∧ n ≤ 9223372036854775807 then some (int n) else none

/-- A floating point number; one above all that there are is refused. -/
def floatNumber? (cs : List Char) : Option Toml := do
  let (negative, ds) := match cs with
    | '-' :: ds => (true, ds)
    | '+' :: ds => (false, ds)
    | ds => (false, ds)
  let signed (x : Float) : Toml := float (if negative then -x else x)
  if ds = "inf".toList then some (signed (1.0 / 0.0))
  else if ds = "nan".toList then some (signed (0.0 / 0.0))
  else
    let (mantissa, exponent) := ds.span fun c => c != 'e' && c != 'E'
    let (whole, fraction) := mantissa.span fun c => c != '.'
    let whole ← underscored? Char.isDigit whole
    if whole.head? = some '0' ∧ whole.length > 1 then none
    let fraction ← match fraction with
      | [] => some []
      | _ :: ds => underscored? Char.isDigit ds
    let power ← match exponent with
      | [] => some (0 : Int)
      | _ :: '-' :: ds => (underscored? Char.isDigit ds).map fun ds => -Int.ofNat (inBase 10 ds)
      | _ :: '+' :: ds => (underscored? Char.isDigit ds).map fun ds => Int.ofNat (inBase 10 ds)
      | _ :: ds => (underscored? Char.isDigit ds).map fun ds => Int.ofNat (inBase 10 ds)
    if fraction.isEmpty ∧ exponent.isEmpty then none
    else
      let total := power - Int.ofNat fraction.length
      let size := Float.ofScientific (inBase 10 (whole ++ fraction)) (total < 0) total.natAbs
      if size.isInf ∧ ¬ negative then none else some (signed size)

end Mailroom.Toml
