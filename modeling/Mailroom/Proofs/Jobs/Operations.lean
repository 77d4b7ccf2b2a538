import Mailroom.Proofs.Jobs.Reviewing

/-!
Whole operations.  Main statement: a tick and an operator's call, each by itself, leave every job
balanced.
-/

namespace Mailroom

open Program (Asks Meets Completes)

variable {e : Engine} {actor : Actor} {job : Uuid} {ids : List Uuid} {u v w : Scene} {α : Type}

theorem calm_gentle :
    Calm (jobActs actor job ids) (.gentle job ids) (fun _ _ => False) (fun _ _ => True)
      (Balanced job) :=
  ⟨stable_never _, fun hacts hwithin hu =>
    ⟨trivial, Balanced.of_within hacts.1 hu hacts.2.2 hwithin⟩⟩

theorem ensures_tick (hw : Balanced job w) :
    Ensures actor job ids e.tick (fun _ => Balanced job) w := by
  have hpromote : ∀ v, Balanced job v →
      Ensures actor job ids Engine.promote.run (fun _ => Balanced job) v := fun _ hv =>
    calm_gentle.meets (Engine.asks_promote fun _ => .inr (by decide)) hv
  exact Meets.tick (stable_never _) hpromote (fun _ => ensures_reconcile)
    (fun _ => ensures_driveAll) hw

/-- The row of a job is read as it is. -/
theorem ensures_get {P : Scene → Prop} (hP : ∀ u v, v.tables = u.tables → P u → P v) (hw : P w) :
    Ensures actor job ids (JobControl.get job).run
      (fun result v => P v ∧ ∀ j, v.tables.job? job = some j ↔ result = .ok j) w := by
  apply meets_store (by simp) (stable_never _) hw
  intro reply u v hu hacts
  obtain ⟨now, hreply, htables⟩ := Surroundings.acts_ok hacts.2.2
  have hsame : v.tables = u.tables := htables
  have hread : v.tables.job? job = reply := by
    rw [hsame]
    exact hreply.symm
  cases reply with
  | none =>
      refine Meets.pure (stable_never _) ⟨hP u v hsame hu, fun j => ?_⟩
      rw [hread]
      constructor <;> intro h <;> cases h
  | some row =>
      refine Meets.pure (stable_never _) ⟨hP u v hsame hu, fun j => ?_⟩
      rw [hread, Option.some.injEq, Except.ok.injEq]

theorem Move.check_eq_ok {m : JobControl.Move} {j : Job} {status : JobStatus}
    (h : m.check j = .ok status) : Tables.canLeave m.sources j = true := by
  unfold JobControl.Move.check at h
  split at h
  · cases h
  · rename_i known hknown
    split at h
    · rename_i hmay
      rw [Bool.and_eq_true] at hmay
      simpa [Tables.canLeave, hknown] using hmay.1
    · cases h

/-- A job that has stopped is set running. -/
theorem ensures_make {j : Job} {status : JobStatus}
    (hcheck : JobControl.Move.retry.check j = .ok status) (hw : w.tables.job? job = some j) :
    Ensures actor job ids (JobControl.Move.retry.make job).run
      (fun result v => (∃ moved, result = .ok moved) ∧ IsRunning job v) w := by
  have hread : Ensures actor job ids (JobControl.get job).run
      (fun result v => v.tables.job? job = some j ∧
        ∀ k, v.tables.job? job = some k ↔ result = .ok k) w :=
    ensures_get (fun _ _ hsame hrow => by rw [hsame]; exact hrow) hw
  apply Meets.serviceBind
  apply hread.weaken
  intro result u hu
  rcases hu with ⟨hrow, hresult⟩
  obtain rfl := (hresult j).1 hrow
  apply Meets.liftExcept
  · intro known hknown
    apply meets_store (P := fun s => s.tables.job? job = some j) (by simp) (stable_never _) hrow
    intro moved x y hx hacts
    obtain ⟨-, hid⟩ := (Tables.job?_eq_some_iff hacts.1.1.wellFormed).1 hx
    have hleaves := Move.check_eq_ok hcheck
    obtain ⟨now, hreply, htables⟩ := Surroundings.acts_ok hacts.2.2
    have hmoved : moved = some (Tables.movedTo .running now j) := by
      rw [hreply]
      simp only [Tables.serve, Tables.moveJob, hx, Option.filter_some, hleaves, if_true]
      rfl
    have hrunning : IsRunning job y := by
      refine ⟨Tables.movedTo .running now j, ?_, rfl⟩
      rw [htables, Tables.job?_serve_of_some now hacts.1.1.wellFormed _ hx]
      simp only [StoreCall.onJob, hid, hleaves, beq_self_eq_true, Bool.and_self, if_true]
      rfl
    subst hmoved
    exact Meets.pure (stable_never _) ⟨⟨_, rfl⟩, hrunning⟩
  · intro error herror
    rw [hcheck] at herror
    cases herror

theorem ensures_get_balanced (hw : Balanced job w) :
    Ensures actor job ids (JobControl.get job).run
      (fun result v => Balanced job v ∧ ∀ j, v.tables.job? job = some j ↔ result = .ok j) w :=
  ensures_get (fun _ _ hsame hu => Balanced.stable hu (steady_of_tables_eq hsame)) hw

/-- A job that may be started again is set running and counted. -/
theorem ensures_restart {j : Job} {status : JobStatus}
    (hcheck : JobControl.Move.retry.check j = .ok status) (hw : w.tables.job? job = some j) :
    Ensures actor job ids
      (do
        let _ ← JobControl.Move.retry.make job
        let _ ← Service.store (.refreshStats job)
        JobControl.get job : Service JobError Job).run (fun _ => Balanced job) w := by
  apply Meets.serviceBind
  apply (ensures_make hcheck hw).weaken
  intro made u hu
  obtain ⟨⟨moved, rfl⟩, hrunning⟩ := hu
  apply meets_store (by simp) (stable_never _) hrunning
  intro stats x y hx hacts
  apply (ensures_get_balanced (isCounted_of_refresh hx hacts).balanced).weaken
  intro result z hz
  exact hz.1

theorem ensures_retry (action : RetryAction) (hw : Balanced job w) :
    Ensures actor job ids (JobControl.retry job action).run (fun _ => Balanced job) w := by
  apply Meets.serviceBind
  apply (ensures_get_balanced hw).weaken
  intro result u hu
  rcases hu with ⟨hbalanced, hresult⟩
  cases result with
  | error error => exact Meets.pure (stable_never _) hbalanced
  | ok j =>
      have hrow : u.tables.job? job = some j := (hresult j).2 rfl
      apply Meets.liftExcept
      · intro status hcheck
        cases action with
        | pending => exact ensures_restart hcheck hrow
        | failed =>
            apply meets_store (P := fun s => s.tables.job? job = some j) (by simp)
              (stable_never _) hrow
            intro count x y hx hacts
            obtain ⟨now, -, htables⟩ := Surroundings.acts_ok hacts.2.2
            apply ensures_restart hcheck
            rw [htables]
            exact hx
      · intro error _
        exact Meets.pure (stable_never _) hbalanced

theorem ensures_call (call : OperatorCall) (hw : Balanced job w) :
    Ensures actor job ids call.program (fun _ => Balanced job) w := by
  have hscheduled : ¬ JobStatus.scheduled.IsOutcome := by decide
  have hrunning : ¬ JobStatus.running.IsOutcome := by decide
  cases call with
  | create r registry standard =>
      exact calm_gentle.meets (r.asks_create registry standard hscheduled hrunning) hw
  | pause id => exact calm_gentle.meets (JobControl.Move.asks_make (.inr (by decide))) hw
  | resume id => exact calm_gentle.meets (JobControl.Move.asks_make (.inr hrunning)) hw
  | cancel id => exact calm_gentle.meets (JobControl.Move.asks_make (.inr (by decide))) hw
  | retry id action =>
      by_cases hid : id = job
      · subst hid
        exact ensures_retry action hw
      · exact calm_gentle.meets (JobControl.asks_retry (fun _ => hid) (.inl hid) trivial) hw

end Mailroom
