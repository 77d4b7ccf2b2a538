import Mailroom.Json.Draft
import Mailroom.Decimal.Approximate
import Mailroom.Text.Hex

/-!
Reading JSON texts, as far as they go.  A whole number that fits 64 bits stays whole, any other
becomes a floating point number; nesting is limited.
-/

namespace Mailroom.Json

def skipBlanks (cs : List Char) : List Char :=
  cs.dropWhile fun c => c == ' ' || c == '\n' || c == '\t' || c == '\r'

/-- Four hexadecimal digits. -/
def unit? (cs : List Char) : Option (Nat × List Char) :=
  if (cs.take 4).length = 4 then (Text.hexNumber? (cs.take 4)).map fun n => (n, cs.drop 4)
  else none

/-- The character that an escape after `\u` stands for, or nothing for half of a pair; two halves
stand for one. -/
def unicodeEscape? (cs : List Char) : Option (Option Char × List Char) := do
  let (n, rest) ← unit? cs
  if 0xDC00 ≤ n ∧ n ≤ 0xDFFF then some (none, rest)
  else if 0xD800 ≤ n ∧ n ≤ 0xDBFF then
    match rest with
    | '\\' :: 'u' :: after =>
        match unit? after with
        | some (low, after) =>
            if 0xDC00 ≤ low ∧ low ≤ 0xDFFF then
              some (some (Char.ofNat (0x10000 + (n - 0xD800) * 1024 + (low - 0xDC00))), after)
            else some (none, rest)
        | none => some (none, rest)
    | _ => some (none, rest)
  else some (some (Char.ofNat n), rest)

/-- The rest of a string after its opening quote, with the characters read so far in reverse, unless
one of them was half of a pair. -/
def stringRest? : (fuel : Nat) → List Char → Option (List Char) → Option (Draft × List Char)
  | 0, _, _ => none
  | _, [], _ => none
  | fuel + 1, c :: cs, done =>
      let next (c : Char) (rest : List Char) := stringRest? fuel rest (done.map (c :: ·))
      if c = '"' then some ((done.map fun cs => .str (String.ofList cs.reverse)).getD .void, cs)
      else if c = '\\' then
        match cs with
        | '"' :: rest => next '"' rest
        | '\\' :: rest => next '\\' rest
        | '/' :: rest => next '/' rest
        | 'b' :: rest => next '\x08' rest
        | 'f' :: rest => next '\x0c' rest
        | 'n' :: rest => next '\n' rest
        | 'r' :: rest => next '\r' rest
        | 't' :: rest => next '\t' rest
        | 'u' :: rest =>
            match unicodeEscape? rest with
            | some (some c, rest) => next c rest
            | some (none, rest) => stringRest? fuel rest none
            | none => none
        | _ => none
      else if c.toNat < 0x20 then none
      else next c cs

/-- A string after its opening quote. -/
def string? (cs : List Char) : Option (Draft × List Char) :=
  stringRest? (cs.length + 1) cs (some [])

def digits (cs : List Char) : List Char × List Char := cs.span Char.isDigit

/-- Digits taken into 64 bits while they fit: the value and how many were left out. -/
def gather (start : Nat) (ds : List Char) : Nat × Nat :=
  ds.foldl (fun (value, dropped) (c : Char) =>
    let next := value * 10 + (c.toNat - 48)
    if dropped = 0 ∧ next < UInt64.size then (next, 0) else (value, dropped + 1)) (start, 0)

/-- The sign and digits of an exponent, if a mark introduces one. -/
def exponent? : List Char → Option (Option (Bool × List Char) × List Char)
  | c :: rest =>
      if c = 'e' ∨ c = 'E' then
        let (negative, rest) := match rest with
          | '+' :: rest => (false, rest)
          | '-' :: rest => (true, rest)
          | rest => (false, rest)
        let (ds, rest) := digits rest
        if ds.isEmpty then none else some (some (negative, ds), rest)
      else some (none, c :: rest)
  | [] => some (none, [])

/-- The floating point number of digits before and after the point and of an exponent; void if it is
out of range. -/
def realOf (negative : Bool) (whole fraction : List Char) (exponent : Option (Bool × List Char)) :
    Draft :=
  let (value, dropped) := gather 0 whole
  let (value, shift) :=
    if fraction.isEmpty then (value, Int.ofNat dropped)
    else
      let (value, unused) := gather value fraction
      (value, Int.ofNat dropped - Int.ofNat (fraction.length - unused))
  let result :=
    match exponent with
    | none => Decimal.approximate? negative value.toUInt64 shift
    | some (down, ds) =>
        let size := ds.foldl (fun n (c : Char) => n * 10 + (c.toNat - 48)) 0
        if size > 2147483647 then
          if value = 0 ∨ down then some (if negative then -0.0 else 0.0) else none
        else
          let total := if down then shift - Int.ofNat size else shift + Int.ofNat size
          Decimal.approximate? negative value.toUInt64 total
  (result.map .real).getD .void

def number? (cs : List Char) : Option (Draft × List Char) := do
  let (negative, cs) := match cs with
    | '-' :: rest => (true, rest)
    | cs => (false, cs)
  let (whole, rest) := digits cs
  if whole.isEmpty ∨ (whole.head? = some '0' ∧ whole.length > 1) then none
  let (fraction, rest) ← match rest with
    | '.' :: rest =>
        let (ds, rest) := digits rest
        if ds.isEmpty then none else some (ds, rest)
    | rest => some ([], rest)
  let (exponent, rest) ← exponent? rest
  let value := (gather 0 whole).1
  if fraction.isEmpty ∧ exponent.isNone ∧ (gather 0 whole).2 = 0 ∧
      (¬ negative ∨ (0 < value ∧ value ≤ Nat.pow 2 63)) then
    return (.int (if negative then -Int.ofNat value else Int.ofNat value), rest)
  else if fraction.isEmpty ∧ exponent.isNone ∧ (gather 0 whole).2 = 0 then
    return (.real (-(value.toUInt64.toFloat)), rest)
  else
    return (realOf negative whole fraction exponent, rest)

/-- The deepest nesting that stands for anything. -/
def depthLimit : Nat := 127

/-- A value that is nested too deep: void, if the text goes on after it. -/
def buried (d : Draft) : Draft := if d.isWhole then .void else .broken

mutual

/-- A value after blanks, with the text that follows it if it is whole. -/
def valueFrom : (fuel depth : Nat) → List Char → Draft × List Char
  | 0, _, _ => (.broken, [])
  | fuel + 1, depth, cs =>
      match skipBlanks cs with
      | 'n' :: 'u' :: 'l' :: 'l' :: rest => (.null, rest)
      | 't' :: 'r' :: 'u' :: 'e' :: rest => (.bool true, rest)
      | 'f' :: 'a' :: 'l' :: 's' :: 'e' :: rest => (.bool false, rest)
      | '"' :: rest => (string? rest).getD (.broken, [])
      | '[' :: rest =>
          let (d, rest) := match skipBlanks rest with
            | ']' :: rest => (.arr [] true, rest)
            | rest => itemsFrom fuel (depth - 1) rest []
          (if depth = 0 then buried d else d, rest)
      | c :: rest =>
          if c = '\x7b' then
            let (d, rest) := match skipBlanks rest with
              | [] => (.obj [] false, [])
              | d :: after =>
                  if d = '\x7d' then (.obj [] true, after)
                  else membersFrom fuel (depth - 1) (d :: after) []
            (if depth = 0 then buried d else d, rest)
          else (number? (c :: rest)).getD (.broken, [])
      | [] => (.broken, [])

/-- The items of an array, with those read so far in reverse. -/
def itemsFrom : (fuel depth : Nat) → List Char → List Draft → Draft × List Char
  | 0, _, _, _ => (.broken, [])
  | fuel + 1, depth, cs, done =>
      let (item, rest) := valueFrom fuel depth cs
      let done := item :: done
      if item.isWhole then
        match skipBlanks rest with
        | ',' :: rest => itemsFrom fuel depth rest done
        | ']' :: rest => (.arr done.reverse true, rest)
        | _ => (.arr done.reverse false, [])
      else (.arr done.reverse false, [])

/-- The members of an object, with those read so far in reverse; what stands where a name should,
and is none, is the name of a last member without a value. -/
def membersFrom : (fuel depth : Nat) → List Char → List (Draft × Draft) → Draft × List Char
  | 0, _, _, _ => (.broken, [])
  | fuel + 1, depth, cs, done =>
      match skipBlanks cs with
      | '"' :: rest =>
          let (name, rest) := (string? rest).getD (.broken, [])
          match skipBlanks rest with
          | ':' :: rest =>
              let (item, rest) := valueFrom fuel depth rest
              let done := (name, item) :: done
              if item.isWhole then
                match skipBlanks rest with
                | ',' :: rest => membersFrom fuel depth rest done
                | c :: rest =>
                    if c = '\x7d' then (.obj done.reverse true, rest)
                    else (.obj done.reverse false, [])
                | [] => (.obj done.reverse false, [])
              else (.obj done.reverse false, [])
          | _ => (.obj ((name, .broken) :: done).reverse false, [])
      | cs => (.obj (((valueFrom fuel depth cs).1, .broken) :: done).reverse false, [])

end

/-- The first value of a text and the text after it. -/
def readFirst (text : String) : Draft × List Char :=
  let cs := text.toList
  valueFrom (2 * cs.length + 2) depthLimit cs

/-- The value of a text that holds nothing else. -/
def read (text : String) : Draft :=
  let (d, rest) := readFirst text
  if (skipBlanks rest).isEmpty then d else .broken

end Mailroom.Json
