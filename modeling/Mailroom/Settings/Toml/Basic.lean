import Mailroom.Bindings
import Mailroom.Json.Basic

/-!
Values of settings files in TOML, and the tables of a document as they grow: each key may be set
once, and a table that has been closed may not be entered again.
-/

namespace Mailroom

/-- How a table came to be, which decides who may still add to it. -/
inductive Toml.Origin where
  | passedThrough
  | header
  | dotted
  | inline
deriving DecidableEq, Repr

inductive Toml where
  | text (s : String)
  | int (n : Int)
  | float (x : Float)
  | bool (b : Bool)
  | date (written : String)
  | list (items : List Toml)
  | tables (items : List Toml)
  | table (origin : Toml.Origin) (entries : List (String × Toml))
deriving Inhabited

namespace Toml

abbrev Entries := Bindings Toml

open Bindings (put)

/-- Change the entries at a path of headers, making the tables on the way. -/
def atHeader (path : List String) (change : Entries → Option Entries) (entries : Entries) :
    Option Entries :=
  match path with
  | [] => change entries
  | name :: rest =>
      match entries.lookup name with
      | none => do return put name (table .passedThrough (← atHeader rest change [])) entries
      | some (table .inline _) => none
      | some (table origin inner) => do
          return put name (table origin (← atHeader rest change inner)) entries
      | some (tables items) =>
          match items.getLast? with
          | some (table origin inner) => do
              let last := table origin (← atHeader rest change inner)
              return put name (tables (items.dropLast ++ [last])) entries
          | _ => none
      | some _ => none

def openTable (name : String) (entries : Entries) : Option Entries :=
  match entries.lookup name with
  | none => some (put name (table .header []) entries)
  | some (table .passedThrough inner) => some (put name (table .header inner) entries)
  | some _ => none

/-- Add a table to the list of tables that a header names. -/
def addTable (name : String) (entries : Entries) : Option Entries :=
  match entries.lookup name with
  | none => some (put name (tables [table .header []]) entries)
  | some (tables items) => some (put name (tables (items ++ [table .header []])) entries)
  | some _ => none

/-- Set a dotted key.  Only the tables that dotted keys made take keys this way; a table that
headers passed through, or the last one of a list, may still be gone through to such a table. -/
def setKey (path : List String) (value : Toml) (entries : Entries) : Option Entries :=
  match path with
  | [] => none
  | [name] => if (entries.lookup name).isSome then none else some (put name value entries)
  | name :: rest =>
      match entries.lookup name with
      | none => do return put name (table .dotted (← setKey rest value [])) entries
      | some (table .dotted inner) => do
          return put name (table .dotted (← setKey rest value inner)) entries
      | some (table .passedThrough inner) =>
          if rest.length = 1 then none
          else do return put name (table .passedThrough (← setKey rest value inner)) entries
      | some (tables items) =>
          if rest.length = 1 then none
          else match items.getLast? with
          | some (table origin inner) => do
              let last := table origin (← setKey rest value inner)
              return put name (tables (items.dropLast ++ [last])) entries
          | _ => none
      | some _ => none

mutual

/-- The JSON value with the same content; `ofDate` says what stands for a date. -/
def toJson (ofDate : String → Json) : Toml → Json
  | text s => .str s
  | int n => .int n
  | float x => .real x
  | bool b => .bool b
  | date written => ofDate written
  | list items => .arr (itemsToJson ofDate items)
  | tables items => .arr (itemsToJson ofDate items)
  | table _ entries => .obj (entriesToJson ofDate entries)

def itemsToJson (ofDate : String → Json) : List Toml → List Json
  | [] => []
  | item :: rest => toJson ofDate item :: itemsToJson ofDate rest

def entriesToJson (ofDate : String → Json) : Entries → List (String × Json)
  | [] => []
  | (name, value) :: rest => (name, toJson ofDate value) :: entriesToJson ofDate rest

end

end Toml

end Mailroom
