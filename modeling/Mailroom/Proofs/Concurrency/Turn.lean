import Mathlib.Logic.Function.Basic
import Mailroom.Program

/-!
Programs taking turns.  In one turn a program makes one request and goes on with the answer; while
it is split, any of its tasks that has not ended may take the turn.  Main statements: a program has
at most one result, and whatever holds of all requests of a program holds of the request of a turn.
-/

namespace Mailroom

namespace Program

inductive Ends : {α : Type} → Program α → α → Prop where
  | done {α : Type} (a : α) : Ends (done a) a
  | join {α β : Type} {admission : Admission} {count : Nat} {tasks : Fin count → Program β}
      {next : (Fin count → β) → Program α} {results : Fin count → β} {a : α}
      (htasks : ∀ i, Ends (tasks i) (results i)) (hnext : Ends (next results) a) :
      Ends (fork admission count tasks next) a

/-- A program makes a request, gets an answer, and this is left of it.  The tasks of a fork take
their turns in any order, and what follows the fork waits for all of them. -/
inductive Turn : {α : Type} → Program α → (e : Effect) → e.Answer → Program α → Prop where
  | ask {α : Type} {e : Effect} {next : e.Answer → Program α} (answer : e.Answer) :
      Turn (ask e next) e answer (next answer)
  | task {α β : Type} {admission : Admission} {count : Nat} {tasks : Fin count → Program β}
      {next : (Fin count → β) → Program α} {e : Effect} {answer : e.Answer} {left : Program β}
      (i : Fin count) (hturn : Turn (tasks i) e answer left) :
      Turn (fork admission count tasks next) e answer
        (fork admission count (Function.update tasks i left) next)
  | join {α β : Type} {admission : Admission} {count : Nat} {tasks : Fin count → Program β}
      {next : (Fin count → β) → Program α} {results : Fin count → β} {e : Effect}
      {answer : e.Answer} {left : Program α} (htasks : ∀ i, Ends (tasks i) (results i))
      (hturn : Turn (next results) e answer left) :
      Turn (fork admission count tasks next) e answer left

theorem Ends.unique {α : Type} {p : Program α} {a b : α} (ha : Ends p a) (hb : Ends p b) :
    a = b := by
  induction ha with
  | done a =>
      cases hb
      rfl
  | join htasks hnext ihtasks ihnext =>
      cases hb with
      | join htasks' hnext' =>
          obtain rfl := funext fun i => ihtasks i (htasks' i)
          exact ihnext hnext'

/-! ### Requests -/

/-- All requests that a program may ever make are of a kind. -/
def Asks (kind : Effect → Prop) : {α : Type} → Program α → Prop
  | _, done _ => True
  | _, ask e next => kind e ∧ ∀ answer, Asks kind (next answer)
  | _, fork _ _ tasks next => (∀ i, Asks kind (tasks i)) ∧ ∀ results, Asks kind (next results)

section

variable {α β : Type} {kind : Effect → Prop}

@[simp] theorem asks_pure (a : α) : Asks kind (pure a : Program α) := trivial

@[simp] theorem asks_request (e : Effect) : Asks kind (request e) ↔ kind e :=
  ⟨fun h => h.1, fun h => ⟨h, fun _ => trivial⟩⟩

theorem Asks.mono {kind' : Effect → Prop} {p : Program α} (hp : Asks kind p)
    (h : ∀ e, kind e → kind' e) : Asks kind' p := by
  induction p with
  | done a => trivial
  | ask e next ih => exact ⟨h e hp.1, fun answer => ih answer (hp.2 answer)⟩
  | fork admission count tasks next ihtasks ihnext =>
      exact ⟨fun i => ihtasks i (hp.1 i), fun results => ihnext results (hp.2 results)⟩

theorem asks_of_forall (h : ∀ e, kind e) (p : Program α) : Asks kind p := by
  induction p with
  | done a => trivial
  | ask e next ih => exact ⟨h e, ih⟩
  | fork admission count tasks next ihtasks ihnext => exact ⟨ihtasks, ihnext⟩

theorem Asks.bind {p : Program α} {f : α → Program β} (hp : Asks kind p)
    (hf : ∀ a, Asks kind (f a)) : Asks kind (p >>= f) := by
  change Asks kind (p.andThen f)
  induction p with
  | done a => exact hf a
  | ask e next ih => exact ⟨hp.1, fun answer => ih answer (hp.2 answer) hf⟩
  | fork admission count tasks next _ ih =>
      exact ⟨hp.1, fun results => ih results (hp.2 results) hf⟩

theorem Asks.forEach {γ : Type} {admission : Admission} {xs : List γ} {task : γ → Program β}
    (h : ∀ x ∈ xs, Asks kind (task x)) : Asks kind (forEach admission xs task) :=
  ⟨fun i => h _ (List.getElem_mem i.isLt), fun _ => trivial⟩

/-- What ends a fork is left of the program behind it. -/
theorem Asks.turn {p q : Program α} {e : Effect} {answer : e.Answer} (hp : Asks kind p)
    (hturn : Turn p e answer q) : kind e ∧ Asks kind q := by
  induction hturn with
  | ask answer => exact ⟨hp.1, hp.2 answer⟩
  | task i hturn ih =>
      obtain ⟨hkind, hleft⟩ := ih (hp.1 i)
      refine ⟨hkind, fun j => ?_, hp.2⟩
      by_cases hj : j = i
      · subst hj
        simpa using hleft
      · simpa [hj] using hp.1 j
  | join htasks hturn ih => exact ih (hp.2 _)

end

end Program

namespace Service

open Program (Asks)

variable {ε α β : Type} {kind : Effect → Prop}

theorem asks_pure (a : α) : Asks kind (pure a : Service ε α).run := trivial

theorem asks_throw (error : ε) : Asks kind (throw error : Service ε α).run := trivial

theorem asks_bind {x : Service ε α} {f : α → Service ε β} (hx : Asks kind x.run)
    (hf : ∀ a, Asks kind (f a).run) : Asks kind (x >>= f).run := by
  apply Asks.bind hx
  intro result
  cases result with
  | ok a => exact hf a
  | error error => trivial

theorem asks_request {e : Effect} (h : kind e) : Asks kind (request e : Service ε _).run :=
  ⟨h, fun _ => trivial⟩

theorem asks_store [OfFailure ε] {call : StoreCall} (h : kind (.store call)) :
    Asks kind (store call : Service ε _).run := by
  refine ⟨h, fun answer => ?_⟩
  cases answer <;> trivial

theorem asks_found (error : ε) (value : Option α) : Asks kind (found error value).run := by
  cases value <;> trivial

theorem asks_liftExcept (result : Except ε α) :
    Asks kind (liftExcept result : Service ε α).run := by
  cases result <;> trivial

theorem run_lift_bind (p : Program α) (k : α → Service ε β) :
    (ExceptT.lift p >>= k).run = p >>= fun a => (k a).run := by
  simp

theorem asks_lift {p : Program α} (hp : Asks kind p) :
    Asks kind (ExceptT.lift p : Service ε α).run :=
  Asks.bind hp fun _ => trivial

end Service

end Mailroom
