/-!
JSON values.  An object keeps its members as they were written, repeated names included; its
canonical form has every name once, in order, with the value written last.
-/

namespace Mailroom

/-- A JSON value; whole numbers are kept apart from the others. -/
inductive Json where
  | null
  | bool (b : Bool)
  | int (n : Int)
  | real (x : Float)
  | str (s : String)
  | arr (items : List Json)
  | obj (members : List (String × Json))
deriving Inhabited

namespace Json

/-- Put a member where its name belongs, in place of an earlier one of that name. -/
def insertMember (name : String) (value : Json) : List (String × Json) → List (String × Json)
  | [] => [(name, value)]
  | (n, v) :: rest =>
      if name = n then (name, value) :: rest
      else if name < n then (name, value) :: (n, v) :: rest
      else (n, v) :: insertMember name value rest

mutual

/-- The canonical form: in every object each name once, in ascending order, with its last value. -/
def canonical : Json → Json
  | arr items => arr (canonicalItems items)
  | obj members => obj (canonicalMembers members [])
  | other => other

def canonicalItems : List Json → List Json
  | [] => []
  | item :: rest => canonical item :: canonicalItems rest

def canonicalMembers : List (String × Json) → List (String × Json) → List (String × Json)
  | [], done => done
  | (name, value) :: rest, done => canonicalMembers rest (insertMember name (canonical value) done)

end

/-- The value of a member, the last one written if the name is repeated. -/
def member? {α : Type} (name : String) : List (String × α) → Option α
  | [] => none
  | (n, v) :: rest =>
      match member? name rest with
      | some later => some later
      | none => if n = name then some v else none

def get? (name : String) : Json → Option Json
  | obj members => member? name members
  | _ => none

def str? : Json → Option String
  | str s => some s
  | _ => none

def ofOption : Option String → Json
  | some s => str s
  | none => null

def ofStrings (ss : List String) : Json := arr (ss.map str)

def ofNat (n : Nat) : Json := int (Int.ofNat n)

end Json

end Mailroom
