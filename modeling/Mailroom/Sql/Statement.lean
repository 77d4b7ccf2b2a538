import Mailroom.Json.Basic
import Mailroom.Timestamp
import Mailroom.Uuid

/-!
What is said to a database and what it answers: statements whose values stand in for numbered
placeholders, the ends of transactions, rows and failures.
-/

namespace Mailroom.Sql

inductive Value where
  | null
  | text (s : String)
  | bool (b : Bool)
  | int (n : Int)
  | json (j : Json)
  | id (id : Uuid)
  | time (t : Timestamp)
  | texts (ss : List String)
  | ids (ids : List Uuid)
deriving Inhabited

def Value.ofOption {α : Type} (f : α → Value) : Option α → Value
  | some a => f a
  | none => .null

/-- Something said to a database.  A migration is recorded among those that it went through. -/
inductive Command where
  | statement (text : String) (values : List Value)
  | beginTransaction
  | commit
  | rollback
  | recordMigration (version : Int) (name digest : String)
deriving Inhabited

/-- A row: its columns by name; one that is missing holds nothing. -/
abbrev Row := List (String × Json)

/-- What a database answers: rows and how many of its own rows were affected, or a failure. -/
inductive Reply where
  | rows (rows : List Row) (affected : Nat)
  | failure (text : String)
deriving Inhabited

end Mailroom.Sql
