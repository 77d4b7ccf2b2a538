import Mailroom.Json.Draft
import Mailroom.Timestamp
import Mailroom.Uuid
import Mailroom.Vocabulary
import Mailroom.Text.Dictionary

/-!
Reading typed values out of JSON drafts.  A record is described once, field by field, and can then
be read from an object or from an array of its fields in order.  A draft is gone through in the
order in which it is written, so that of two faults the first counts, and what is not looked at may
be void.
-/

namespace Mailroom.Json

/-- Why a value is refused: it has the wrong kind or range, or the text is none that could go on at
its place. -/
inductive Refusal where
  | misfit
  | malformed
deriving DecidableEq, Repr

/-- Why a draft of the wrong kind is refused. -/
def Draft.refusal : Draft → Refusal
  | void | broken => .malformed
  | _ => .misfit

/-- A way to read a value of type `α`. -/
abbrev Decoder (α : Type) := Draft → Except Refusal α

namespace Decoder

/-- The end of an array or object after what was read from it. -/
def ended {α : Type} (closed : Bool) (a : α) : Except Refusal α :=
  if closed then .ok a else .error .malformed

def int (low high : Int) : Decoder Int
  | .int n => if low ≤ n ∧ n ≤ high then .ok n else .error .misfit
  | d => .error d.refusal

def int32 : Decoder Int := int (-2147483648) 2147483647

def int64 : Decoder Int := int (-9223372036854775808) 9223372036854775807

def nat32 : Decoder Nat := fun d => (int 0 4294967295 d).map Int.toNat

def nat64 : Decoder Nat := fun d => (int 0 18446744073709551615 d).map Int.toNat

def bool : Decoder Bool
  | .bool b => .ok b
  | d => .error d.refusal

def text : Decoder String
  | .str s => .ok s
  | d => .error d.refusal

/-- Any value, in canonical form. -/
def any : Decoder Json := fun d =>
  match d.toJson? with
  | some j => .ok j.canonical
  | none => .error .malformed

/-- What a text spells in a notation of its own. -/
def spelled {α : Type} (parse? : String → Option α) : Decoder α
  | .str s => match parse? s with
    | some a => .ok a
    | none => .error .misfit
  | d => .error d.refusal

def uuid : Decoder Uuid := spelled Uuid.parse?

def time : Decoder Timestamp := spelled Timestamp.parse?

def orNull {α : Type} (decode : Decoder α) : Decoder (Option α)
  | .null => .ok none
  | d => (decode d).map some

def list {α : Type} (decode : Decoder α) : Decoder (List α)
  | .arr items closed => do ended closed (← items.mapM decode)
  | d => .error d.refusal

def name : Draft → Except Refusal String
  | .str s => .ok s
  | _ => .error .malformed

/-- An object of texts; of two members of one name the later counts. -/
def dictionary : Decoder Dictionary
  | .obj members closed => do
      let entries ← members.mapM fun (n, value) => do
        let n ← name n
        return (n, ← text value)
      ended closed (Dictionary.ofList entries)
  | d => .error d.refusal

/-- A word of a vocabulary, alone or as the name of a single member that is null. -/
def word {σ : Type} [Vocabulary σ] : Decoder σ
  | .str s => spelled Vocabulary.ofWord? (.str s)
  | .obj ((name, value) :: rest) closed => do
      let found ← spelled Vocabulary.ofWord? name
      match value with
      | .null => ended (closed && rest.isEmpty) found
      | d => throw d.refusal
  | _ => .error .malformed

end Decoder

/-- How the fields of a record are read, in the order in which they are declared. -/
structure Fields (α : Type) where
  checks : List (String × (Draft → Except Refusal Unit))
  needed : List String
  ofMembers : List (String × Draft) → Except Refusal α
  ofItems : List Draft → (closed : Bool) → Except Refusal (α × List Draft)

namespace Fields

variable {α β : Type}

def done (a : α) : Fields α := ⟨[], [], fun _ => .ok a, fun items _ => .ok (a, items)⟩

/-- The fields of one record, then those of another. -/
def also (f : Fields (α → β)) (g : Unit → Fields α) : Fields β where
  checks := f.checks ++ (g ()).checks
  needed := f.needed ++ (g ()).needed
  ofMembers members := do
    let h ← f.ofMembers members
    let a ← (g ()).ofMembers members
    return h a
  ofItems items closed := do
    let (h, items) ← f.ofItems items closed
    let (a, items) ← (g ()).ofItems items closed
    return (h a, items)

instance : Applicative Fields where
  pure := done
  seq := also

/-- One field; `absent` stands in for a missing member, `short` for an array that ends before it. -/
def field (name : String) (decode : Decoder α) (absent short : Option α) : Fields α where
  checks := [(name, fun d => (decode d).map fun _ => ())]
  needed := if absent.isNone then [name] else []
  ofMembers members :=
    match member? name members, absent with
    | some value, _ => decode value
    | none, some a => .ok a
    | none, none => .error .misfit
  ofItems
    | item :: rest, _ => (decode item).map fun a => (a, rest)
    | [], closed => do
        Decoder.ended closed ()
        match short with
        | some a => return (a, [])
        | none => throw .misfit

def required (name : String) (decode : Decoder α) : Fields α := field name decode none none

def defaulted (name : String) (decode : Decoder α) (a : α) : Fields α :=
  field name decode (some a) (some a)

/-- A field that may be null or missing, but is counted in an array. -/
def optional (name : String) (decode : Decoder α) : Fields (Option α) :=
  field name decode.orNull (some none) none

/-- A field that may be null or missing, also from the end of an array. -/
def trailing (name : String) (decode : Decoder α) : Fields (Option α) :=
  field name decode.orNull (some none) (some none)

/-- Check the members in the order in which they are written: a known name may come only once, and
what any other names is passed over. -/
def checkMembers (checks : List (String × (Draft → Except Refusal Unit))) :
    List (Draft × Draft) → (seen : List String) → Except Refusal Unit
  | [], _ => .ok ()
  | (name, value) :: rest, seen => do
      let name ← Decoder.name name
      match checks.lookup name with
      | none =>
          Decoder.ended value.isWhole ()
          checkMembers checks rest seen
      | some check =>
          if seen.contains name then throw .misfit
          check value
          checkMembers checks rest (name :: seen)

/-- Read a record from an object or an array; `spare` says whether an array may hold more. -/
def read (spare : Bool) (f : Fields α) : Decoder α
  | .obj members closed => do
      checkMembers f.checks members []
      Decoder.ended closed ()
      f.ofMembers (Draft.named members)
  | .arr items closed => do
      let (a, rest) ← f.ofItems items closed
      Decoder.ended (spare || (closed && rest.isEmpty)) a
  | d => .error d.refusal

/-- Read a record from an object or from an array of exactly its fields. -/
def decoder (f : Fields α) : Decoder α := f.read false

/-- Read a record from an object or from an array that begins with its fields. -/
def leading (f : Fields α) : Decoder α := f.read true

end Fields

end Mailroom.Json
