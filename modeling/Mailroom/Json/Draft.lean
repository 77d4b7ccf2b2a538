import Mailroom.Json.Basic

/-!
JSON texts as far as they can be read.  A draft keeps what a text says before it breaks off, and
which of its values are well formed but stand for nothing.  Main statement: the draft of a JSON
value stands for that value.
-/

namespace Mailroom.Json

/-- What a text says where a value is looked for.  A value is void if it is well formed and yet
stands for nothing: a number out of range, a string with half of a pair, nesting that is too deep.
An array or object that is not closed breaks off after its last item or member. -/
inductive Draft where
  | null
  | bool (b : Bool)
  | int (n : Int)
  | real (x : Float)
  | str (s : String)
  | void
  | broken
  | arr (items : List Draft) (closed : Bool)
  | obj (members : List (Draft × Draft)) (closed : Bool)
deriving Inhabited

namespace Draft

/-- Whether the text goes on after the value, so that the value can be passed over. -/
def isWhole : Draft → Bool
  | broken => false
  | arr _ closed => closed
  | obj _ closed => closed
  | _ => true

/-- The members of an object whose names are texts. -/
def named (members : List (Draft × Draft)) : List (String × Draft) :=
  members.filterMap fun
    | (str name, value) => some (name, value)
    | _ => none

mutual

def toJson? : Draft → Option Json
  | null => some .null
  | bool b => some (.bool b)
  | int n => some (.int n)
  | real x => some (.real x)
  | str s => some (.str s)
  | void | broken => none
  | arr items closed => if closed then (itemsToJson? items).map .arr else none
  | obj members closed => if closed then (membersToJson? members).map .obj else none

def itemsToJson? : List Draft → Option (List Json)
  | [] => some []
  | item :: rest =>
      match toJson? item, itemsToJson? rest with
      | some j, some js => some (j :: js)
      | _, _ => none

def membersToJson? : List (Draft × Draft) → Option (List (String × Json))
  | [] => some []
  | (name, value) :: rest =>
      match name, toJson? value, membersToJson? rest with
      | str name, some j, some js => some ((name, j) :: js)
      | _, _, _ => none

end

end Draft

mutual

/-- The draft of a value: a text that spells it and nothing else. -/
def draft : Json → Draft
  | null => .null
  | bool b => .bool b
  | int n => .int n
  | real x => .real x
  | str s => .str s
  | arr items => .arr (draftItems items) true
  | obj members => .obj (draftMembers members) true

def draftItems : List Json → List Draft
  | [] => []
  | item :: rest => draft item :: draftItems rest

def draftMembers : List (String × Json) → List (Draft × Draft)
  | [] => []
  | (name, value) :: rest => (.str name, draft value) :: draftMembers rest

end

instance : Coe Json Draft := ⟨draft⟩

mutual

theorem toJson?_draft : (j : Json) → j.draft.toJson? = some j
  | null | bool _ | int _ | real _ | str _ => by simp [draft, Draft.toJson?]
  | arr items => by simp [draft, Draft.toJson?, itemsToJson?_draftItems items]
  | obj members => by simp [draft, Draft.toJson?, membersToJson?_draftMembers members]

theorem itemsToJson?_draftItems :
    (items : List Json) → Draft.itemsToJson? (draftItems items) = some items
  | [] => rfl
  | item :: rest => by
      simp [draftItems, Draft.itemsToJson?, toJson?_draft item, itemsToJson?_draftItems rest]

theorem membersToJson?_draftMembers :
    (members : List (String × Json)) →
      Draft.membersToJson? (draftMembers members) = some members
  | [] => rfl
  | (_, value) :: rest => by
      simp [draftMembers, Draft.membersToJson?, toJson?_draft value,
        membersToJson?_draftMembers rest]

end

theorem isWhole_draft (j : Json) : j.draft.isWhole = true := by
  cases j <;> simp [draft, Draft.isWhole]

theorem named_draftMembers (members : List (String × Json)) :
    Draft.named (draftMembers members) = members.map fun (name, value) => (name, value.draft) := by
  induction members with
  | nil => rfl
  | cons member rest ih =>
      obtain ⟨name, value⟩ := member
      simpa [draftMembers, Draft.named] using ih

end Mailroom.Json
