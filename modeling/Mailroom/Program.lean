import Mailroom.Mta.Message
import Mailroom.Quota
import Mailroom.Routing.Selection
import Mailroom.Store.Call

/-!
Programs: what the services do, as requests to their surroundings and what follows each answer.  A
program may split into tasks that run side by side and go on when all of them are done.  What the
requests mean, and in which order tasks take their turns, is left open here.
-/

namespace Mailroom

/-- A request of a program to its surroundings. -/
inductive Effect where
  | store (call : StoreCall)
  | storeLater (call : StoreCall)
  | mta (server : String) (call : MtaCall)
  | ping
  | now
  | sleep (milliseconds : Nat)
  | choose (strategy : Strategy) (key : String) (servers : List String)
  | allow (key : String) (perMinute perHour : Nat)
  | remaining (key : String) (perMinute perHour : Nat)
  | accepted
  | keepAccepted (item : Uuid) (remoteId : String)
  | dropAccepted (item : Uuid)
  | stopping

namespace Effect

@[reducible] def Answer : Effect → Type
  | store call => call.Answer
  | storeLater _ => Unit
  | mta _ call => call.Answer
  | ping => Except Failure Unit
  | now => Timestamp
  | sleep _ => Unit
  | choose _ _ _ => Option Nat
  | allow _ _ _ => Bool
  | remaining _ _ _ => Remaining
  | accepted => List (Uuid × String)
  | keepAccepted _ _ | dropAccepted _ => Unit
  | stopping => Bool

end Effect

/-- Whether the tasks of a fork begin as soon as they can, or each only with a permit. -/
inductive Admission where
  | free
  | permitted
deriving DecidableEq, Repr

/-- A program that comes to a result of a type. -/
inductive Program : Type → Type 1 where
  | done {α : Type} (a : α) : Program α
  | ask {α : Type} (e : Effect) (next : e.Answer → Program α) : Program α
  | fork {α β : Type} (admission : Admission) (count : Nat) (tasks : Fin count → Program β)
      (next : (Fin count → β) → Program α) : Program α

namespace Program

def andThen {α β : Type} : Program α → (α → Program β) → Program β
  | done a, f => f a
  | ask e next, f => ask e fun answer => (next answer).andThen f
  | fork admission count tasks next, f =>
      fork admission count tasks fun results => (next results).andThen f

instance : Monad Program where
  pure := done
  bind := andThen

def request (e : Effect) : Program e.Answer := ask e done

/-- Run one task for each element of a list, and gather the results in order. -/
def forEach {γ β : Type} (admission : Admission) (xs : List γ) (task : γ → Program β) :
    Program (List β) :=
  fork admission xs.length (fun i => task xs[i]) fun results => done (List.ofFn results)

theorem andThen_done {α : Type} (p : Program α) : p.andThen done = p := by
  induction p with
  | done a => rfl
  | ask e next ih => simp only [andThen, ih]
  | fork admission count tasks next _ ih => simp only [andThen, ih]

theorem andThen_assoc {α β γ : Type} (p : Program α) (f : α → Program β) (g : β → Program γ) :
    (p.andThen f).andThen g = p.andThen fun a => (f a).andThen g := by
  induction p with
  | done a => rfl
  | ask e next ih => simp only [andThen, ih]
  | fork admission count tasks next _ ih => simp only [andThen, ih]

instance : LawfulMonad Program :=
  LawfulMonad.mk' Program andThen_done (fun _ _ => rfl) andThen_assoc

end Program

/-- Errors that a failure of the store can be turned into. -/
class OfFailure (ε : Type) where
  ofFailure : Failure → ε

instance : OfFailure Failure := ⟨id⟩

instance : OfFailure DispatchError := ⟨.storage⟩

instance : OfFailure JobError := ⟨.storage⟩

/-- An error that is only a text. -/
instance : OfFailure String := ⟨Failure.message⟩

/-- A program that may end early with an error. -/
abbrev Service (ε α : Type) := ExceptT ε Program α

namespace Service

variable {ε : Type}

def request (e : Effect) : Service ε e.Answer := ExceptT.lift (Program.request e)

/-- Call the store; its failures become errors. -/
def store [OfFailure ε] (call : StoreCall) : Service ε call.Reply :=
  ExceptT.mk do
    match ← Program.request (.store call) with
    | .ok reply => return .ok reply
    | .error failure => return .error (OfFailure.ofFailure failure)

def mta (server : String) (call : MtaCall) : Service ε call.Answer := request (.mta server call)

def found {α : Type} (error : ε) : Option α → Service ε α
  | some a => pure a
  | none => throw error

end Service

end Mailroom
