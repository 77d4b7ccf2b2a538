import Mailroom.Json.Basic

/-!
Members taken out of an object one by one, with something in place of those that are missing or of
another kind.
-/

namespace Mailroom.Json

/-- A member, null if there is none. -/
def memberAt (j : Json) (name : String) : Json := (j.get? name).getD .null

def textAt? (j : Json) (name : String) : Option String := (j.get? name).bind str?

def textAt (j : Json) (name : String) (absent : String) : String := (j.textAt? name).getD absent

def intAt (j : Json) (name : String) (absent : Int) : Int :=
  match j.get? name with
  | some (.int n) => n
  | _ => absent

/-- The whole number of a member, or another; a negative one counts as zero. -/
def natAt (j : Json) (name : String) (absent : Nat) : Nat := (j.intAt name absent).toNat

def holdsAt (j : Json) (name : String) : Bool :=
  match j.get? name with
  | some (.bool b) => b
  | _ => false

def listAt (j : Json) (name : String) : List Json :=
  match j.get? name with
  | some (.arr items) => items
  | _ => []

def textsAt (j : Json) (name : String) : List String := (j.listAt name).filterMap str?

def members : Json → List (String × Json)
  | obj members => members
  | _ => []

end Mailroom.Json
