import Mathlib.Algebra.BigOperators.Fin
import Mailroom.Proofs.Concurrency.Office

/-!
What a program spends.  Requests have prices, and a program keeps within a budget if it does so
whatever it is answered, as long as the answers are such as the surroundings give.  Main statements:
a turn takes its price out of the budget, and what follows a program spends the rest.
-/

namespace Mailroom

namespace Program

/-- In these surroundings a program spends no more than its budget, and it comes only to results of
a kind.  The tasks of a fork have shares of the budget. -/
def Spends (price : Effect → Nat) (around : Surroundings) :
    {α : Type} → Program α → (budget : Nat) → (α → Prop) → Prop
  | _, done a, _, post => post a
  | _, ask e next, budget, post =>
      ∃ rest, price e + rest ≤ budget ∧
        ∀ answer, around e answer → Spends price around (next answer) rest post
  | _, fork _ count tasks next, budget, post =>
      ∃ (shares : Fin count → Nat) (rest : Nat), (∑ i, shares i) + rest ≤ budget ∧
        (∀ i, Spends price around (tasks i) (shares i) fun _ => True) ∧
        ∀ results, Spends price around (next results) rest post

variable {price : Effect → Nat} {around : Surroundings} {α β γ : Type} {post : α → Prop}
  {p q : Program α} {budget rest : Nat}

theorem Spends.mono {around' : Surroundings} {post' : α → Prop}
    (hp : Spends price around p budget post) (hbudget : budget ≤ rest)
    (haround : ∀ e answer, around' e answer → around e answer) (hpost : ∀ a, post a → post' a) :
    Spends price around' p rest post' := by
  induction p generalizing budget rest with
  | done a => exact hpost a hp
  | ask e next ih =>
      obtain ⟨left, hle, hnext⟩ := hp
      exact ⟨left, by omega, fun answer hanswer =>
        ih answer (hnext answer (haround e answer hanswer)) (Nat.le_refl left) hpost⟩
  | fork admission count tasks next ihtasks ihnext =>
      obtain ⟨shares, left, hle, htasks, hnext⟩ := hp
      exact ⟨shares, left, by omega,
        fun i => ihtasks i (htasks i) (Nat.le_refl (shares i)) fun _ _ => trivial,
        fun results => ihnext results (hnext results) (Nat.le_refl left) hpost⟩

theorem Spends.le (hp : Spends price around p budget post) (hbudget : budget ≤ rest) :
    Spends price around p rest post :=
  hp.mono hbudget (fun _ _ h => h) fun _ h => h

theorem Spends.weaken {post' : α → Prop} (hp : Spends price around p budget post)
    (hpost : ∀ a, post a → post' a) : Spends price around p budget post' :=
  hp.mono (Nat.le_refl budget) (fun _ _ h => h) hpost

/-- Requests that are free take nothing out of a budget. -/
theorem spends_of_asks (hp : Asks (fun e => price e = 0) p) (budget : Nat) :
    Spends price around p budget fun _ => True := by
  induction p generalizing budget with
  | done a => trivial
  | ask e next ih =>
      obtain ⟨hfree, hnext⟩ := hp
      exact ⟨budget, by omega, fun answer _ => ih answer (hnext answer) budget⟩
  | fork admission count tasks next ihtasks ihnext =>
      exact ⟨fun _ => 0, budget, by simp, fun i => ihtasks i (hp.1 i) 0,
        fun results => ihnext results (hp.2 results) budget⟩

/-- One share in place of another. -/
theorem sum_update_add {M : Type} [AddCommMonoid M] {count : Nat} (shares : Fin count → M)
    (i : Fin count) (share : M) :
    ∑ j, Function.update shares i share j + shares i = ∑ j, shares j + share := by
  rw [Finset.sum_update_of_mem (Finset.mem_univ i), Finset.sdiff_singleton_eq_erase, add_assoc,
    Finset.sum_erase_add _ _ (Finset.mem_univ i), add_comm]

/-- What a turn costs is taken out of the budget. -/
theorem Spends.turn {e : Effect} {answer : e.Answer} (hp : Spends price around p budget post)
    (hturn : Turn p e answer q) (hanswer : around e answer) :
    ∃ rest, price e + rest ≤ budget ∧ Spends price around q rest post := by
  induction hturn generalizing budget with
  | ask answer =>
      obtain ⟨rest, hle, hnext⟩ := hp
      exact ⟨rest, hle, hnext answer hanswer⟩
  | @task α β admission count tasks next e answer left i hturn ih =>
      obtain ⟨shares, rest, hle, htasks, hnext⟩ := hp
      obtain ⟨share, hshare, hleft⟩ := ih (htasks i) hanswer
      have hshares := sum_update_add shares i share
      refine ⟨∑ j, Function.update shares i share j + rest, by omega,
        Function.update shares i share, rest, Nat.le_refl _, fun j => ?_, hnext⟩
      by_cases hj : j = i
      · subst hj
        simpa using hleft
      · simpa [hj] using htasks j
  | join htasks hturn ih =>
      obtain ⟨shares, rest, hle, _, hnext⟩ := hp
      obtain ⟨left, hleft, hrest⟩ := ih (hnext _) hanswer
      exact ⟨left, by omega, hrest⟩

/-- What follows a program spends the rest. -/
theorem Spends.bind {f : α → Program β} {post : β → Prop}
    (hp : Spends price around p budget fun a => Spends price around (f a) rest post) :
    Spends price around (p >>= f) (budget + rest) post := by
  change Spends price around (p.andThen f) (budget + rest) post
  induction p generalizing budget with
  | done a => exact Spends.le hp (Nat.le_add_left rest budget)
  | ask e next ih =>
      obtain ⟨left, hle, hnext⟩ := hp
      exact ⟨left + rest, by omega, fun answer hanswer => ih answer (hnext answer hanswer)⟩
  | fork admission count tasks next _ ih =>
      obtain ⟨shares, left, hle, htasks, hnext⟩ := hp
      exact ⟨shares, left + rest, by omega, htasks, fun results => ih results (hnext results)⟩

/-- Tasks that run side by side spend what they spend one by one. -/
theorem Spends.forEach {admission : Admission} {xs : List γ} {task : γ → Program β}
    (share : γ → Nat) (htasks : ∀ x ∈ xs, Spends price around (task x) (share x) fun _ => True) :
    Spends price around (Program.forEach admission xs task) (xs.map share).sum fun _ => True := by
  refine ⟨fun i => share xs[i], 0, ?_, fun i => htasks _ (List.getElem_mem i.isLt),
    fun _ => trivial⟩
  exact Nat.le_of_eq (Fin.sum_univ_fun_getElem xs share)

section Services

variable {ε : Type} {post : Except ε β → Prop}

theorem Spends.store [OfFailure ε] {call : StoreCall} {k : call.Reply → Service ε β}
    (hok : ∀ reply, around (.store call) (.ok reply) → Spends price around (k reply).run rest post)
    (herror : ∀ failure, post (.error (OfFailure.ofFailure failure))) :
    Spends price around (Service.store call >>= k).run (price (.store call) + rest) post := by
  refine ⟨rest, Nat.le_refl _, fun answer hanswer => ?_⟩
  cases answer with
  | ok reply => exact hok reply hanswer
  | error failure => exact herror failure

theorem Spends.lift {p : Program α} {k : α → Service ε β}
    (hp : Spends price around p budget fun a => Spends price around (k a).run rest post) :
    Spends price around (ExceptT.lift p >>= k).run (budget + rest) post := by
  rw [Service.run_lift_bind]
  exact hp.bind

end Services

end Program

end Mailroom
