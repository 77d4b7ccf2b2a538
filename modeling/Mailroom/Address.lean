import Mailroom.Text.Blank
import Mailroom.Text.Cut
import Mailroom.Text.Letter

/-!
Mail addresses, bare (`user@domain`) or with a display name (`Name <user@domain>`).
-/

namespace Mailroom

/-- A mail address: the local part as written, the domain in lower case. -/
structure Address where
  localPart : String
  domain : String
deriving DecidableEq, Repr

namespace Address

/-- The text between the last `<` and the last `>` when they stand in this order, else all of it. -/
def bracketed (cs : List Char) : List Char :=
  match Text.cutLast '<' cs with
  | none => cs
  | some (_, after) =>
      match Text.cutLast '>' after with
      | none => cs
      | some (inside, _) => inside

/-- Read an address; blanks around it, inside the brackets and around the domain do not count. -/
def parse? (s : String) : Option Address :=
  match Text.cutLast '@' (Text.trim (bracketed (Text.trim s.toList))) with
  | none => none
  | some (localPart, rest) =>
      let domain := Text.trim rest
      if localPart = [] ∨ domain = [] then none
      else some ⟨String.ofList localPart, Text.lowered (String.ofList domain)⟩

/-- The bare form of an address. -/
def display (a : Address) : String := a.localPart ++ "@" ++ a.domain

def senderDomain? (s : String) : Option String := (parse? s).map domain

end Address

end Mailroom
