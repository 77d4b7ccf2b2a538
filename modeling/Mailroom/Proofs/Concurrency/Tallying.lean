import Mathlib.Algebra.Order.Group.Multiset
import Mailroom.Proofs.Concurrency.Call
import Mailroom.Proofs.Concurrency.Completion
import Mailroom.Proofs.Concurrency.Spending

/-!
What a program asks for, counted exactly.  Some requests have names, and a program comes to the same
names whatever it is answered.  Main statement: however a program of the engine runs while operators
go on, the engine's events since then have exactly the names that the program comes to.
-/

namespace Mailroom

open Relation (ReflTransGen)

namespace Program

variable {κ α β γ : Type} {name : Effect → Option κ} {p q : Program α} {n m : Multiset κ}

/-- The requests that a program makes have these names in all, whatever it is answered. -/
def Tallies (name : Effect → Option κ) : {α : Type} → Program α → Multiset κ → Prop
  | _, done _, n => n = 0
  | _, ask e next, n =>
      ∃ rest, n = ↑(name e).toList + rest ∧ ∀ answer, Tallies name (next answer) rest
  | _, fork _ count tasks next, n =>
      ∃ (shares : Fin count → Multiset κ) (rest : Multiset κ), n = (∑ i, shares i) + rest ∧
        (∀ i, Tallies name (tasks i) (shares i)) ∧ ∀ results, Tallies name (next results) rest

/-- Requests without names add nothing. -/
theorem tallies_of_asks (hp : Asks (fun e => name e = none) p) : Tallies name p 0 := by
  induction p with
  | done a => rfl
  | ask e next ih =>
      obtain ⟨hnone, hnext⟩ := hp
      exact ⟨0, by simp [hnone], fun answer => ih answer (hnext answer)⟩
  | fork admission count tasks next ihtasks ihnext =>
      exact ⟨fun _ => 0, 0, by simp, fun i => ihtasks i (hp.1 i),
        fun results => ihnext results (hp.2 results)⟩

theorem Tallies.ends {a : α} (hp : Tallies name p n) (hends : Ends p a) : n = 0 := by
  induction hends generalizing n with
  | done a => exact hp
  | join htasks hnext ihtasks ihnext =>
      obtain ⟨shares, rest, rfl, htallies, hrest⟩ := hp
      rw [ihnext (hrest _), add_zero]
      exact Finset.sum_eq_zero fun i _ => ihtasks i (htallies i)

/-- A turn takes the name of its request out of what is to come. -/
theorem Tallies.turn {e : Effect} {answer : e.Answer} (hp : Tallies name p n)
    (hturn : Turn p e answer q) : ∃ rest, n = ↑(name e).toList + rest ∧ Tallies name q rest := by
  induction hturn generalizing n with
  | ask answer =>
      obtain ⟨rest, hn, hnext⟩ := hp
      exact ⟨rest, hn, hnext answer⟩
  | @task α β admission count tasks next e answer left i hturn ih =>
      obtain ⟨shares, rest, rfl, htasks, hnext⟩ := hp
      obtain ⟨share, hshare, hleft⟩ := ih (htasks i)
      have hshares : ∑ j, shares j = ↑(name e).toList + ∑ j, Function.update shares i share j := by
        apply add_right_cancel (b := share)
        rw [← sum_update_add, hshare, ← add_assoc, add_comm (∑ j, _)]
      refine ⟨(∑ j, Function.update shares i share j) + rest, by rw [hshares, add_assoc],
        Function.update shares i share, rest, rfl, fun j => ?_, hnext⟩
      by_cases hj : j = i
      · subst hj
        simpa using hleft
      · simpa [hj] using htasks j
  | join htasks hturn ih =>
      obtain ⟨shares, rest, rfl, htallies, hrest⟩ := hp
      have hnone : ∑ i, shares i = 0 :=
        Finset.sum_eq_zero fun i _ => (htallies i).ends (htasks i)
      rw [hnone, zero_add]
      exact ih (hrest _)

theorem Tallies.bind {f : α → Program β} (hp : Tallies name p n)
    (hf : ∀ a, Tallies name (f a) m) : Tallies name (p >>= f) (n + m) := by
  change Tallies name (p.andThen f) (n + m)
  induction p generalizing n with
  | done a =>
      obtain rfl : n = 0 := hp
      rw [zero_add]
      exact hf a
  | ask e next ih =>
      obtain ⟨rest, rfl, hnext⟩ := hp
      exact ⟨rest + m, by rw [add_assoc], fun answer => ih answer (hnext answer) hf⟩
  | fork admission count tasks next _ ih =>
      obtain ⟨shares, rest, rfl, htasks, hnext⟩ := hp
      exact ⟨shares, rest + m, by rw [add_assoc], htasks,
        fun results => ih results (hnext results) hf⟩

/-- Tasks that each come to one name or none. -/
theorem Tallies.forEach {admission : Admission} {xs : List γ} {task : γ → Program β}
    (share : γ → Option κ) (htasks : ∀ x ∈ xs, Tallies name (task x) ↑(share x).toList) :
    Tallies name (Program.forEach admission xs task) ↑(xs.filterMap share) := by
  have hsum : ∑ i : Fin xs.length, (↑(share xs[i]).toList : Multiset κ) =
      ↑(xs.filterMap share) := by
    refine (Fin.sum_univ_fun_getElem xs fun x => (↑(share x).toList : Multiset κ)).trans ?_
    clear htasks
    induction xs with
    | nil => rfl
    | cons x xs ih =>
        rw [List.map_cons, List.sum_cons, ih, List.filterMap_cons]
        cases share x <;> rfl
  refine ⟨fun i => ↑(share xs[i]).toList, 0, by rw [hsum, add_zero],
    fun i => htasks _ (List.getElem_mem i.isLt), fun _ => rfl⟩

end Program

/-- What becomes of a state by a request when others go on before and after it. -/
def amid {W : Type} (others : W → W → Prop) (acts : Acts W) : Acts W := fun e answer u v =>
  ∃ x y, ReflTransGen others u x ∧ acts e answer x y ∧ ReflTransGen others y v

variable {around : Surroundings} {me : Actor} {acts : Acts Scene} {effect : Effect}
  {answer : effect.Answer} {u v w : Scene} {κ α : Type} {name : Effect → Option κ}
  {kind : Effect → Prop} {n m : Multiset κ}

/-- The name of an actor's request. -/
def Event.named (name : Effect → Option κ) (me : Actor) (v : Event) : Option κ :=
  if v.actor = me then name v.effect else none

/-- An actor made requests of a kind only, and all others kept within their scopes. -/
def Event.IsOrderly (me : Actor) (kind : Effect → Prop) (v : Event) : Prop :=
  (v.actor = me → kind v.effect) ∧ (v.actor ≠ me → v.effect.Within v.actor.scope)

/-- From one scene to another an actor made requests of a kind, which have these names in all, while
others kept within their scopes. -/
def Logs (me : Actor) (name : Effect → Option κ) (kind : Effect → Prop) (n : Multiset κ)
    (u v : Scene) : Prop :=
  ∃ events, v.history = events ++ u.history ∧ ↑(events.filterMap (Event.named name me)) = n ∧
    ∀ event ∈ events, event.IsOrderly me kind

namespace Logs

theorem refl (me : Actor) (name : Effect → Option κ) (kind : Effect → Prop) (u : Scene) :
    Logs me name kind 0 u u :=
  ⟨[], rfl, rfl, by simp⟩

theorem trans (huv : Logs me name kind n u v) (hvw : Logs me name kind m v w) :
    Logs me name kind (n + m) u w := by
  obtain ⟨events, hv, rfl, hevents⟩ := huv
  obtain ⟨events', hw, rfl, hevents'⟩ := hvw
  refine ⟨events' ++ events, by rw [hw, hv, List.append_assoc], ?_, fun event hevent => ?_⟩
  · rw [List.filterMap_append, ← Multiset.coe_add, add_comm]
  · rcases List.mem_append.1 hevent with hevent | hevent
    · exact hevents' event hevent
    · exact hevents event hevent

theorem of_others (name : Effect → Option κ) (kind : Effect → Prop)
    (h : ReflTransGen (Others around me) u v) : Logs me name kind 0 u v := by
  induction h with
  | refl => exact .refl me name kind u
  | @tail x y _ hstep ih =>
      obtain ⟨actor, effect, answer, hactor, hwithin, hacts⟩ := hstep
      have hlast : Logs me name kind 0 x y := by
        refine ⟨[_], Surroundings.acts_history hacts, by simp [Event.named, hactor], ?_⟩
        rw [List.forall_mem_singleton]
        exact ⟨fun h => absurd h hactor, fun _ => hwithin⟩
      exact ih.trans hlast

theorem of_acts (name : Effect → Option κ) (hkind : kind effect)
    (hacts : around.acts me effect answer u v) :
    Logs me name kind ↑(name effect).toList u v := by
  refine ⟨[_], Surroundings.acts_history hacts, ?_, ?_⟩
  · cases h : name effect <;> simp [Event.named, h]
  · rw [List.forall_mem_singleton]
    exact ⟨fun _ => hkind, fun h => absurd rfl h⟩

/-- A request while others go on is logged alone. -/
theorem of_amid (name : Effect → Option κ) (hkind : kind effect)
    (hacts : ∀ u v, acts effect answer u v → around.acts me effect answer u v)
    (h : amid (Others around me) acts effect answer u v) :
    Logs me name kind ↑(name effect).toList u v := by
  obtain ⟨x, y, hbefore, hown, hafter⟩ := h
  have hlog := ((of_others name kind hbefore).trans (of_acts name hkind (hacts x y hown))).trans
    (of_others name kind hafter)
  rwa [zero_add, add_zero] at hlog

/-- A program that runs while others go on comes to the names of its tally. -/
theorem of_completes {p : Program α} {a : α} (hasks : p.Asks kind) (htally : p.Tallies name n)
    (hacts : ∀ e answer u v, acts e answer u v → around.acts me e answer u v)
    (h : p.Completes (amid (Others around me) acts) w a v) : Logs me name kind n w v := by
  induction h generalizing n with
  | ends hends =>
      rw [htally.ends hends]
      exact .refl _ _ _ _
  | turn hturn hstep _ ih =>
      obtain ⟨hkind, hleft⟩ := hasks.turn hturn
      obtain ⟨rest, rfl, hrest⟩ := htally.turn hturn
      exact (of_amid name hkind (hacts _ _) hstep).trans (ih hleft hrest)

end Logs

end Mailroom
