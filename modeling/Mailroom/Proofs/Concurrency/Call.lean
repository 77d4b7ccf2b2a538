import Mailroom.Proofs.Concurrency.Scope

/-!
One operator's call among all else that goes on.  Main statement: a call that is within its terms
when it begins, whatever other actors do within their scopes, is so as long as it lasts.
-/

namespace Mailroom

open Program (Meets)

/-- What goes on besides an actor: others make requests, each within its own scope. -/
def Others (around : Surroundings) (me : Actor) (u v : Scene) : Prop :=
  ∃ actor effect answer, actor ≠ me ∧ effect.Within actor.scope ∧
    around.acts actor effect answer u v

namespace Office

variable {e : Engine} {around : Surroundings} {t : Tables} {o : Office} {place : Nat}
  {call : OperatorCall}

/-- Events of operators are those of calls that have begun. -/
theorem Reachable.place_lt (ho : Reachable e around t o) :
    ∀ v ∈ o.scene.history, ∀ place call, v.actor = .operator place call →
      place < o.calls.length := by
  induction ho with
  | refl => simp [opening]
  | tail _ hstep ih =>
      cases hstep with
      | beginTick hidle => exact ih
      | beginCall call =>
          intro v hv place other hactor
          have hlt := ih v hv place other hactor
          rw [List.length_append, List.length_singleton]
          exact Nat.lt_succ_of_lt hlt
      | tick hturn hacts =>
          rw [Surroundings.acts_history hacts]
          refine List.forall_mem_cons.2 ⟨?_, ih⟩
          intro place call hactor
          cases hactor
      | call hcall hturn hacts =>
          rw [Surroundings.acts_history hacts, List.length_set]
          refine List.forall_mem_cons.2 ⟨?_, ih⟩
          intro place call hactor
          cases hactor
          exact (List.getElem?_eq_some_iff.1 hcall).1

theorem Reachable.meets_call (ht : t.IsWellFormed) (ho : Reachable e around t o)
    {pledge : Scene → Scene → Prop} {post : Except JobError Job → Scene → Prop}
    (hbegin : ∀ s : Scene, s.tables.IsWellFormed →
      (∀ v ∈ s.history, v.actor ≠ .operator place call) →
        call.program.Meets (around.acts (.operator place call))
          (Others around (.operator place call)) pledge post s)
    {p : Program (Except JobError Job)} (hcall : o.calls[place]? = some (call, p)) :
    p.Meets (around.acts (.operator place call)) (Others around (.operator place call)) pledge post
      o.scene := by
  induction ho generalizing p with
  | refl => simp [opening] at hcall
  | @tail o o' ho hstep ih =>
      have ho' : Reachable e around t o' := ho.tail hstep
      cases hstep with
      | beginTick hidle => exact ih hcall
      | beginCall other =>
          by_cases hplace : place < o.calls.length
          · rw [List.getElem?_append_left hplace] at hcall
            exact ih hcall
          · rw [List.getElem?_append_right (Nat.le_of_not_lt hplace)] at hcall
            obtain ⟨hlast, hnew⟩ := List.getElem?_eq_some_iff.1 hcall
            obtain ⟨rfl, rfl⟩ : other = call ∧ other.program = p := by simpa using hnew
            refine hbegin o.scene (Reachable.isWellFormed ht ho) fun v hv hactor => ?_
            exact hplace (Reachable.place_lt ho v hv place other hactor)
      | tick hturn hacts =>
          exact (ih hcall).of_rely ⟨_, _, _, by simp, ho'.within_of_acts hacts, hacts⟩
      | @call scene effect answer n other q left hother hturn hacts =>
          by_cases hplace : n = place
          · subst hplace
            have hn := (List.getElem?_eq_some_iff.1 hother).1
            rw [List.getElem?_set_self hn] at hcall
            obtain ⟨rfl, rfl⟩ : other = call ∧ left = p := by simpa using hcall
            exact ((ih hother).turn hturn hacts).2
          · rw [List.getElem?_set_ne hplace] at hcall
            exact (ih hcall).of_rely ⟨_, _, _, by simp [hplace], ho'.within_of_acts hacts, hacts⟩

end Office

end Mailroom
