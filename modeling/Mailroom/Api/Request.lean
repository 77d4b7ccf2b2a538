import Mailroom.Json.Reader
import Mailroom.Json.Decode
import Mailroom.Text.Letter
import Mailroom.Text.Percent

/-!
Requests to the interface: their target, headers and body, and how values are taken out of them.
-/

namespace Mailroom

open Json (Decoder)

structure ApiRequest where
  method : String
  target : String
  headers : List (String × String)
  body : String
deriving DecidableEq, Repr

/-- Why no value could be taken out of a request. -/
inductive Unreadable where
  | path
  | query
  | mediaType
  | syntaxError
  | shape
deriving DecidableEq, Repr

namespace ApiRequest

/-- The target from its path on; a scheme and a host may stand before it. -/
def fromPath (r : ApiRequest) : List Char :=
  let cs := r.target.toList
  if cs.head? = some '/' then cs
  else match Text.afterLead? "://".toList (cs.dropWhile fun c => c != ':') with
    | some rest => rest.dropWhile fun c => c != '/' && c != '?' && c != '#'
    | none => cs

/-- The target without its fragment. -/
def visible (r : ApiRequest) : List Char := r.fromPath.takeWhile fun c => c != '#'

def path (r : ApiRequest) : String := String.ofList (r.visible.takeWhile fun c => c != '?')

def query (r : ApiRequest) : List (String × String) :=
  Text.queryPairs (String.ofList ((r.visible.dropWhile fun c => c != '?').drop 1))

def header? (r : ApiRequest) (name : String) : Option String :=
  (r.headers.find? fun h => Text.lowered h.1 == name).map Prod.snd

/-- Whether a character may stand in a word of a media type. -/
def isToken (c : Char) : Bool :=
  c.isAlphanum || "!#$%&\x27*+-.^_\x60|~".toList.contains c

/-- Whether a character may stand in a quoted value. -/
def isQuotable (c : Char) : Bool := c.toNat > 31 && c.toNat != 127 && c != '"'

/-- The text after a quoted value and its closing quote.  A value is not empty: a quote at its very
beginning belongs to it. -/
def afterQuoted? (cs : List Char) : Option (List Char) :=
  match cs with
  | [] => none
  | c :: cs =>
      if isQuotable c || c == '"' then
        match cs.dropWhile isQuotable with
        | '"' :: rest => some rest
        | _ => none
      else none

/-- Whether what follows a media type and a semicolon is a list of parameters. -/
def areParameters : (fuel : Nat) → List Char → Bool
  | 0, _ => false
  | fuel + 1, cs =>
      let cs := cs.dropWhile fun c => c == ' '
      if cs.isEmpty then true
      else
        let (name, rest) := cs.span isToken
        match rest with
        | '=' :: '"' :: quoted =>
            match afterQuoted? quoted with
            | none => false
            | some rest =>
                !name.isEmpty && match rest.dropWhile fun c => c == ' ' with
                  | [] => true
                  | ';' :: rest => areParameters fuel rest
                  | _ => false
        | '=' :: plain =>
            let (value, rest) := plain.span isToken
            !name.isEmpty && match rest with
              | [] => true
              | ';' :: rest => !value.isEmpty && areParameters fuel rest
              | _ => false
        | _ => false

/-- A subtype without its suffix, and the suffix after its last plus sign; a plus sign at the very
beginning belongs to the subtype. -/
def parts (subtype : List Char) : List Char × Option (List Char) :=
  match Text.cutLast '+' (subtype.drop 1) with
  | some (base, suffix) => (subtype.take 1 ++ base, some suffix)
  | none => (subtype, none)

/-- Whether a media type stands for JSON: its subtype is `json`, or its last suffix. -/
def isJsonType (mediaType : String) : Bool :=
  match Text.cutFirst '/' (Text.lowered mediaType).toList with
  | none => false
  | some (kind, rest) =>
      let (subtype, rest) := rest.span isToken
      let (base, suffix) := parts subtype
      kind == "application".toList &&
        (base == "json".toList || suffix == some "json".toList) &&
        rest.all (fun c => c.toNat < 127) &&
        match rest with
        | [] => true
        | ';' :: parameters => areParameters (parameters.length + 1) parameters
        | _ => false

/-- The value at the beginning of a JSON body; what follows it does not count.  A value of the wrong
shape is one thing, a body that is no JSON or a value that cannot begin what is expected is
another. -/
def json {α : Type} (r : ApiRequest) (d : Decoder α) : Except Unreadable α :=
  if !((r.header? "content-type").map isJsonType).getD false then .error .mediaType
  else
    match d (Json.readFirst r.body).1 with
    | .error .misfit => .error .shape
    | .error .malformed => .error .syntaxError
    | .ok a => .ok a

/-- The value of a query field that may come once. -/
def field? (r : ApiRequest) (name : String) : Except Unreadable (Option String) :=
  match r.query.filter fun p => p.1 == name with
  | [] => .ok none
  | [p] => .ok (some p.2)
  | _ => .error .query

/-- A signed number of 64 bits as a query spells it. -/
def number? (text : String) : Option Int :=
  let value (ds : List Char) : Option Int :=
    if !ds.isEmpty && ds.all Char.isDigit then
      some (Int.ofNat (ds.foldl (fun n (c : Char) => n * 10 + (c.toNat - 48)) 0))
    else none
  let n := match text.toList with
    | '-' :: ds => (value ds).map fun n => -n
    | '+' :: ds => value ds
    | ds => value ds
  n.filter fun n => -9223372036854775808 ≤ n ∧ n ≤ 9223372036854775807

/-- The number of a query field, or another where the field is missing. -/
def numberField (r : ApiRequest) (name : String) (absent : Int) : Except Unreadable Int := do
  match ← r.field? name with
  | none => return absent
  | some text =>
      match number? text with
      | some n => return n
      | none => throw .query

end ApiRequest

end Mailroom
