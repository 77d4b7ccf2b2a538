import Mailroom.Bindings

/-!
Dictionaries from texts to texts.  Main statement: looking a name up after an insertion finds the
inserted value under its name and the old value under every other.
-/

namespace Mailroom

/-- A dictionary; no name occurs twice when it is built by insertion. -/
structure Dictionary where
  entries : Bindings String
deriving DecidableEq, Repr, Inhabited

namespace Dictionary

def empty : Dictionary := ⟨[]⟩

def get? (d : Dictionary) (name : String) : Option String := d.entries.lookup name

def insert (d : Dictionary) (name value : String) : Dictionary :=
  ⟨Bindings.put name value d.entries⟩

def ofList (entries : List (String × String)) : Dictionary :=
  entries.foldl (fun d (name, value) => d.insert name value) empty

/-- The entries of both; where both bind a name, the second counts. -/
def override (base top : Dictionary) : Dictionary :=
  top.entries.foldl (fun d (name, value) => d.insert name value) base

def isEmpty (d : Dictionary) : Bool := d.entries.isEmpty

@[simp] theorem get?_insert (d : Dictionary) (name value other : String) :
    (d.insert name value).get? other = if other = name then some value else d.get? other :=
  Bindings.lookup_put name other value d.entries

end Dictionary

end Mailroom
