import Mailroom.Decimal.Shortest
import Mailroom.Settings.Basic
import Mailroom.Settings.Path
import Mailroom.Settings.Toml.Document
import Mailroom.Text.Cut

/-!
Settings from a file, and from a file with variables of the environment laid over it.  A file alone
is read strictly; where variables, which are all texts, may be laid over it, names are paths in any
case and values of neighbouring kinds are taken for one another.
-/

namespace Mailroom

open Json (Decoder Refusal)

namespace Settings

/-- Dates are values of a kind of their own. -/
def strictDate (written : String) : Json := .obj [("date", .str written)]

/-- A word, alone or as the only name of a table, with nothing in what it names. -/
def wordOrTable : Decoder StrategyKind
  | .obj [(name, .obj [] _)] _ | .obj [(name, .arr [] _)] _ => Decoder.word name
  | .obj _ _ => .error .misfit
  | d => Decoder.word d

/-- Every value has to be of its own kind, as a file writes them. -/
def written : Leaves := { Leaves.strict with strategy := wordOrTable, spare := true }

def ofFile (content : Option String) : Except Failure Settings := do
  let text ← match content with
    | some text => pure text
    | none => throw (.config "Failed to read config file: No such file or directory (os error 2)")
  match Toml.parse? text with
  | none => throw (.config "Failed to parse config")
  | some entries =>
      match (fields written).decoder (Json.obj (Toml.entriesToJson strictDate entries)) with
      | .ok s => s.validate
      | .error _ => throw (.config "Failed to parse config")

/-- Numbers are written out in full. -/
def plainFormat : Decimal.Format := ⟨-400, 400, "e", "", ""⟩

def floatText (x : Float) : String :=
  if x.isNaN then "NaN"
  else if x.isInf then (if x < 0.0 then "-inf" else "inf")
  else plainFormat.floatText x

/-- The nearest whole number within bounds. -/
def rounded (low high : Int) (x : Float) : Int :=
  if x.isNaN then 0
  else
    let r := x.round
    let (mantissa, power) := Decimal.binaryParts (r.abs.toBits)
    let size : Int :=
      if r.isInf then high + 1
      else if 0 ≤ power then Int.ofNat (mantissa <<< power.toNat)
      else Int.ofNat (mantissa >>> (-power).toNat)
    max low (min high (if r < 0.0 then -size else size))

def digits? (ds : List Char) : Option Int :=
  if !ds.isEmpty && ds.all Char.isDigit then some (Int.ofNat (Toml.inBase 10 ds)) else none

def signedNumber? (s : String) : Option Int :=
  match s.toList with
  | '+' :: ds => digits? ds
  | '-' :: ds => (digits? ds).map fun n => -n
  | ds => digits? ds

/-- A whole number that is not negative, with an optional sign to say so. -/
def unsignedNumber? (s : String) : Option Int :=
  match s.toList with
  | '+' :: ds => digits? ds
  | ds => digits? ds

def truthWord? (s : String) : Option Bool :=
  if ["true", "on", "yes"].contains (Text.lowered s) then some true
  else if ["false", "off", "no"].contains (Text.lowered s) then some false
  else none

/-- A whole number within bounds, from a value of any kind. -/
def anyInt (low high : Int) (number? : String → Option Int) : Decoder Int := fun d =>
  let inside (n : Int) : Except Refusal Int :=
    if low ≤ n ∧ n ≤ high then .ok n else .error .misfit
  match d with
  | .int n => inside n
  | .real x => .ok (rounded low high x)
  | .bool b => .ok (if b then 1 else 0)
  | .str s =>
      match truthWord? s with
      | some b => .ok (if b then 1 else 0)
      | none => match number? s with
        | some n => inside n
        | none => .error .misfit
  | _ => .error .misfit

/-- A number of 64 bits without a sign, from a value of any kind. -/
def anyNat : Decoder Nat := fun d =>
  (anyInt 0 18446744073709551615 unsignedNumber? d).map Int.toNat

/-- A number of 32 bits without a sign, from a value of any kind. -/
def anyNat32 : Decoder Nat := fun d => do
  let n ← anyNat d
  if n < UInt32.size then return n else throw .misfit

def anyBool : Decoder Bool
  | .bool b => .ok b
  | .int n => .ok (n != 0)
  | .real x => .ok (x != 0.0)
  | .str s =>
      if s = "1" then .ok true
      else if s = "0" then .ok false
      else match truthWord? s with
        | some b => .ok b
        | none => .error .misfit
  | _ => .error .misfit

def anyText : Decoder String
  | .str s => .ok s
  | .int n => .ok (toString n)
  | .real x => .ok (floatText x)
  | .bool b => .ok (if b then "true" else "false")
  | _ => .error .misfit

/-- A word, in any case, or the only name of a table. -/
def anyStrategy : Decoder StrategyKind :=
  let find (s : String) : Except Refusal StrategyKind :=
    match Vocabulary.ofWord? (Text.lowered s) with
    | some kind => .ok kind
    | none => .error .misfit
  fun
    | .str s => find s
    | .obj [(.str name, _)] _ => find name
    | _ => .error .misfit

/-- Values are taken for one another. -/
def lenient : Leaves where
  text := anyText
  bool := anyBool
  nat32 := anyNat32
  nat64 := anyNat
  int64 := anyInt (-9223372036854775808) 9223372036854775807 signedNumber?
  strategy := anyStrategy
  spare := true

/-- The name under which a table stands for a date. -/
def dateName : String := "$__toml_private_datetime"

mutual

/-- A value of a file; dates are texts.  None if a table stands for a date and its text is none. -/
def plain? : Toml → Option Json
  | .text s => some (.str s)
  | .int n => some (.int n)
  | .float x => some (.real x)
  | .bool b => some (.bool b)
  | .date text => some (.str text)
  | .list items | .tables items => (plainItems? items).map .arr
  | .table _ [] => some (.obj [])
  | .table _ ((name, first) :: rest) =>
      if name = dateName then
        match first with
        | .text s => (Toml.dateText? .named s.toList).map .str
        | _ => none
      else
        match plain? first, plainEntries? rest with
        | some j, some ms => some (.obj ((name, j) :: ms))
        | _, _ => none

def plainItems? : List Toml → Option (List Json)
  | [] => some []
  | item :: rest =>
      match plain? item, plainItems? rest with
      | some j, some js => some (j :: js)
      | _, _ => none

def plainEntries? : List (String × Toml) → Option (List (String × Json))
  | [] => some []
  | (name, value) :: rest =>
      match plain? value, plainEntries? rest with
      | some j, some ms => some ((name, j) :: ms)
      | _, _ => none

end

/-- The layer of a document: its keys are paths. -/
def layerOfDocument? (text : String) : Option (List (String × Json)) := do
  match ← plain? (.table .header (← Toml.parse? text)) with
  | .obj ms => return ms
  | _ => return []

/-- The start of the names of variables that carry settings. -/
def variableLead : String := "relaymail__"

/-- What parts the steps in a variable's name. -/
def variableMark : List Char := ['_', '_']

/-- A floating point number as variables spell it. -/
def float? (s : String) : Option Float :=
  let (negative, ds) := match s.toList with
    | '-' :: ds => (true, ds)
    | '+' :: ds => (false, ds)
    | ds => (false, ds)
  let signed (x : Float) : Float := if negative then -x else x
  let word := Text.lowered (String.ofList ds)
  if word = "inf" ∨ word = "infinity" then some (signed (1.0 / 0.0))
  else if word = "nan" then some (0.0 / 0.0)
  else
    let (mantissa, exponent) := ds.span fun c => c != 'e' && c != 'E'
    let (whole, fraction) := mantissa.span fun c => c != '.'
    let fraction := fraction.drop 1
    let power? : Option Int := match exponent with
      | [] => some 0
      | _ :: rest => match rest with
        | '+' :: ds => if ds.all Char.isDigit then signedNumber? (String.ofList ds) else none
        | ds => signedNumber? (String.ofList ds)
    match power? with
    | none => none
    | some power =>
        if (whole.isEmpty ∧ fraction.isEmpty) ∨ ¬ whole.all Char.isDigit ∨
            ¬ fraction.all Char.isDigit then none
        else
          let total := power - Int.ofNat fraction.length
          some (signed
            (Float.ofScientific (Toml.inBase 10 (whole ++ fraction)) (total < 0) total.natAbs))

/-- The value of a variable: a truth value, a number, or the text itself. -/
def variableValue (s : String) : Json :=
  if Text.lowered s = "true" then .bool true
  else if Text.lowered s = "false" then .bool false
  else
    match (signedNumber? s).filter fun n => -9223372036854775808 ≤ n ∧ n ≤ 9223372036854775807 with
    | some n => .int n
    | none => match float? s with
      | some x => .real x
      | none => .str s

/-- A name with a dot for every mark between its steps. -/
def pathText (cs : List Char) : String := String.ofList (go cs.length cs)
where
  go : Nat → List Char → List Char
    | 0, cs => cs
    | _, [] => []
    | fuel + 1, c :: cs =>
        match Text.afterLead? variableMark (c :: cs) with
        | some rest => '.' :: go fuel rest
        | none => c :: go fuel cs

/-- The layer of the variables that carry settings. -/
def layerOfVariables (environment : List (String × String)) : List (String × Json) :=
  environment.filterMap fun (name, value) =>
    (Text.after? variableLead (Text.folded name)).map fun rest =>
      (pathText rest.toList, variableValue value)

/-- The settings of a file, if there is one, under a layer of variables. -/
def load (content : Option String) (environment : List (String × String)) :
    Except Failure Settings := do
  let lower ← match content with
    | none => pure []
    | some text =>
        match layerOfDocument? text with
        | some layer => pure layer
        | none => throw (.config "Failed to load config")
  let layered := Path.putAll (layerOfVariables environment) (Path.putAll lower (.obj []))
  match (fields lenient).decoder layered with
  | .ok s => s.validate
  | .error _ => throw (.config "Failed to load config")

end Settings

end Mailroom
