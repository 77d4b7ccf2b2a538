import Mailroom.Sql.Row

/-!
Dialogues with a database: what is said, and what is said next after each answer.
-/

namespace Mailroom.Sql

open Json (Decoder Fields)

/-- A dialogue that comes to a result, or ends with an error. -/
inductive Dialogue (α : Type) where
  | ended (result : Except String α)
  | say (command : Command) (next : Reply → Dialogue α)

namespace Dialogue

variable {α β γ : Type}

/-- One dialogue after another; an error ends both. -/
def andThen : Dialogue α → (α → Dialogue β) → Dialogue β
  | ended (.ok a), f => f a
  | ended (.error e), _ => ended (.error e)
  | say c next, f => say c fun reply => (next reply).andThen f

instance : Monad Dialogue where
  pure a := ended (.ok a)
  bind := andThen

theorem andThen_pure (d : Dialogue α) : (d.andThen fun a => ended (.ok a)) = d := by
  induction d with
  | ended result => cases result <;> rfl
  | say c next ih => simp only [andThen, ih]

theorem andThen_assoc (d : Dialogue α) (f : α → Dialogue β) (g : β → Dialogue γ) :
    (d.andThen f).andThen g = d.andThen fun a => (f a).andThen g := by
  induction d with
  | ended result => cases result <;> rfl
  | say c next ih => simp only [andThen, ih]

instance : LawfulMonad Dialogue :=
  LawfulMonad.mk' Dialogue andThen_pure (fun _ _ => rfl) andThen_assoc

def ofExcept (result : Except String α) : Dialogue α := ended result

/-- A dialogue whose errors begin with some words. -/
def under (lead : String) : Dialogue α → Dialogue α
  | ended (.ok a) => ended (.ok a)
  | ended (.error e) => ended (.error (lead ++ e))
  | say c next => say c fun reply => (next reply).under lead

/-- Say something; a failure of the database is an error. -/
def tell (c : Command) : Dialogue (List Row × Nat) :=
  say c fun
    | .rows rows affected => ended (.ok (rows, affected))
    | .failure text => ended (.error ("error returned from database: " ++ text))

/-- Execute a statement, and learn how many rows it affected. -/
def execute (text : String) (values : List Value) : Dialogue Nat := do
  return (← tell (.statement text values)).2

def affectsAny (text : String) (values : List Value) : Dialogue Bool := do
  return 0 < (← execute text values)

/-- The rows that a statement returns, each read in one way. -/
def select (read : Row → Except String α) (text : String) (values : List Value) :
    Dialogue (List α) := do
  ofExcept ((← tell (.statement text values)).1.mapM read)

/-- The first row that a statement returns, if it returns any. -/
def selectFirst? (read : Row → Except String α) (text : String) (values : List Value) :
    Dialogue (Option α) := do
  match (← tell (.statement text values)).1 with
  | [] => return none
  | row :: _ => return some (← ofExcept (read row))

/-- The row that a statement has to return. -/
def selectOne (read : Row → Except String α) (text : String) (values : List Value) :
    Dialogue α := do
  match ← selectFirst? read text values with
  | some a => return a
  | none =>
      ofExcept (.error "no rows returned by a query that expected to return at least one row")

def count (text : String) (values : List Value) : Dialogue Int :=
  selectOne (Row.cell 0 "count" .int64) text values

/-- A dialogue that takes back what it did if it ends with an error. -/
def orRollback : Dialogue α → Dialogue α
  | ended (.ok a) => ended (.ok a)
  | ended (.error e) => say .rollback fun _ => ended (.error e)
  | say c next => say c fun reply => (next reply).orRollback

def transaction (d : Dialogue α) : Dialogue α :=
  orRollback do
    let _ ← tell .beginTransaction
    let a ← d
    let _ ← tell .commit
    return a

end Dialogue

end Mailroom.Sql
