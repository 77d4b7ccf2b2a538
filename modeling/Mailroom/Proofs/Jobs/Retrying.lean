import Mailroom.Proofs.Concurrency.Call
import Mailroom.Proofs.Concurrency.Cues
import Mailroom.Proofs.Jobs.Counts
import Mailroom.Proofs.Jobs.Moves

/-!
Retries that are refused.  A retry looks at its job, renews the failed items and then moves the job,
and others may act between these requests.  Main statement: a refused retry has changed nothing,
unless it renewed items before somebody else restarted the job.
-/

namespace Mailroom

open JobControl (Move)
open Program (Meets)

variable {around : Surroundings} {me actor : Actor} {job : Uuid} {touched : Event → Prop}
  {effect : Effect} {answer : effect.Answer} {u v w : Scene}

/-- A row may be retried: it is there, and its status is one that a retry starts from. -/
def Retryable (row : Option Job) : Prop :=
  ∃ j status, row = some j ∧ Move.retry.check j = .ok status

/-- A job has stopped, so that a retry may start it again. -/
def IsStopped (job : Uuid) (s : Scene) : Prop :=
  ∃ status ∈ Move.retry.sources, s.tables.statusOf job = some (.known status)

theorem check_eq_ok_iff {j : Job} {status : JobStatus} :
    Move.retry.check j = .ok status ↔
      j.status = .known status ∧ status ∈ Move.retry.sources := by
  have hmay : ∀ known ∈ Move.retry.sources, known.canMoveTo Move.retry.target = true := by decide
  unfold Move.check
  cases hstatus : j.status with
  | other text => simp [Stored.value?]
  | known known =>
      simp only [Stored.value?]
      split
      · rename_i hchecked
        simp only [Bool.and_eq_true, List.contains_iff_mem] at hchecked
        simp only [Except.ok.injEq, Stored.known.injEq]
        constructor
        · rintro rfl
          exact ⟨rfl, hchecked.1⟩
        · exact fun h => h.1
      · rename_i hrefused
        simp only [reduceCtorEq, Stored.known.injEq, false_iff, not_and]
        rintro rfl hmem
        simp [hmem, hmay _ hmem] at hrefused

theorem isStopped_iff {s : Scene} : IsStopped job s ↔ Retryable (s.tables.job? job) := by
  constructor
  · rintro ⟨status, hmem, hstatus⟩
    obtain ⟨j, hj, hknown⟩ := Option.map_eq_some_iff.1 hstatus
    exact ⟨j, status, hj, check_eq_ok_iff.2 ⟨hknown, hmem⟩⟩
  · rintro ⟨j, status, hj, hcheck⟩
    obtain ⟨hknown, hmem⟩ := check_eq_ok_iff.1 hcheck
    exact ⟨status, hmem, by rw [Tables.statusOf, hj, ← hknown]; rfl⟩

/-- A job that has stopped stays so until an operator restarts it. -/
theorem IsStopped.next (hu : u.tables.IsWellFormed) (hacts : around.acts actor effect answer u v)
    (hwithin : effect.Within actor.scope) (hstopped : IsStopped job u) :
    IsStopped job v ∨ Event.restarts job ⟨actor, effect, answer, u.tables, v.tables⟩ = true := by
  obtain ⟨status, hmem, hstatus⟩ := hstopped
  rcases Surroundings.acts_passage hu hacts hwithin hstatus with
    hsame | ⟨source, target, hsource, htarget, hpassage⟩
  · exact .inl ⟨status, hmem, hsame⟩
  · obtain rfl : status = source := Stored.known.inj hsource
    cases hpassage with
    | promoted _ => exact absurd hmem (by decide)
    | finished _ _ _ => exact absurd hmem (by decide)
    | revised _ _ houtcome =>
        refine .inl ⟨target, ?_, htarget⟩
        rcases houtcome with rfl | rfl <;> decide
    | stopped _ hstop =>
        refine .inl ⟨target, ?_, htarget⟩
        rcases hstop with rfl | rfl <;> decide
    | restarted hrestarts _ => exact .inr hrestarts

/-- An actor's own events leave jobs and items as they are, unless they may touch items. -/
def Spared (me : Actor) (touched : Event → Prop) (history : List Event) : Prop :=
  ∀ v ∈ history, v.actor = me →
    v.after.jobs = v.before.jobs ∧ (v.after.items = v.before.items ∨ touched v)

/-- Somebody else restarts a job after an actor has looked at it. -/
def Overtaken (me : Actor) (job : Uuid) (history : List Event) : Prop :=
  ∃ x w, [x, w].Sublist history ∧ w.actor = me ∧ w.effect = .store (.job job) ∧ x.actor ≠ me ∧
    x.restarts job = true

/-- An actor has looked at a job that had stopped. -/
structure Awaits (me : Actor) (job : Uuid) (s : Scene) : Prop where
  wellFormed : s.tables.IsWellFormed
  looked : ∃ w ∈ s.history, w.actor = me ∧ w.effect = .store (.job job)
  stopped : IsStopped job s ∨ Overtaken me job s.history

theorem Spared.mono {touched' : Event → Prop} {history : List Event}
    (h : Spared me touched history) (htouched : ∀ v, touched v → touched' v) :
    Spared me touched' history :=
  fun v hv hactor => (h v hv hactor).imp_right fun h => h.imp_right (htouched v)

theorem Spared.next (hu : Spared me touched u.history)
    (hacts : around.acts actor effect answer u v)
    (hown : actor = me → v.tables.jobs = u.tables.jobs ∧ (v.tables.items = u.tables.items ∨
      touched ⟨actor, effect, answer, u.tables, v.tables⟩)) : Spared me touched v.history := by
  rw [Surroundings.acts_history hacts]
  exact List.forall_mem_cons.2 ⟨hown, hu⟩

theorem Overtaken.next (hu : Overtaken me job u.history)
    (hacts : around.acts actor effect answer u v) : Overtaken me job v.history := by
  obtain ⟨x, w, hsub, h⟩ := hu
  rw [Surroundings.acts_history hacts]
  exact ⟨x, w, hsub.cons _, h⟩

theorem Spared.stable : Stable (Others around me) fun s => Spared me touched s.history := by
  rintro u v hu ⟨actor, effect, answer, hother, -, hacts⟩
  exact hu.next hacts fun hme => absurd hme hother

theorem Overtaken.stable : Stable (Others around me) fun s => Overtaken me job s.history := by
  rintro u v hu ⟨actor, effect, answer, -, -, hacts⟩
  exact hu.next hacts

theorem isWellFormed_stable : Stable (Others around me) fun s => s.tables.IsWellFormed := by
  rintro u v hu ⟨actor, effect, answer, -, -, hacts⟩
  exact Surroundings.acts_isWellFormed hu hacts

theorem Awaits.stable : Stable (Others around me) (Awaits me job) := by
  rintro u v hu ⟨actor, effect, answer, hother, hwithin, hacts⟩
  have hhistory := Surroundings.acts_history hacts
  obtain ⟨w, hw, hlook⟩ := hu.looked
  refine ⟨Surroundings.acts_isWellFormed hu.wellFormed hacts,
    ⟨w, hhistory ▸ List.mem_cons_of_mem _ hw, hlook⟩, ?_⟩
  rcases hu.stopped with hstopped | hovertaken
  · refine (hstopped.next hu.wellFormed hacts hwithin).imp_right fun hrestarts => ?_
    rw [hhistory]
    exact ⟨_, w, (List.singleton_sublist.2 hw).cons_cons _, hlook.1, hlook.2, hother, hrestarts⟩
  · exact .inr (hovertaken.next hacts)

theorem IsStopped.of_jobs_eq (hu : IsStopped job u) (hjobs : v.tables.jobs = u.tables.jobs) :
    IsStopped job v := by
  rw [IsStopped, Tables.statusOf, Tables.job?, hjobs]
  exact hu

theorem Awaits.of_jobs_eq (hu : Awaits me job u) (hacts : around.acts actor effect answer u v)
    (hjobs : v.tables.jobs = u.tables.jobs) : Awaits me job v := by
  obtain ⟨w, hw, hlook⟩ := hu.looked
  refine ⟨Surroundings.acts_isWellFormed hu.wellFormed hacts,
    ⟨w, Surroundings.acts_history hacts ▸ List.mem_cons_of_mem _ hw, hlook⟩, ?_⟩
  exact hu.stopped.imp (fun hstopped => hstopped.of_jobs_eq hjobs) fun hbeaten => hbeaten.next hacts

/-- What an actor does among others when the store never fails. -/
abbrev Proceeds {α : Type} (me : Actor) (p : Program α) (post : α → Scene → Prop) (w : Scene) :
    Prop :=
  p.Meets (Surroundings.reliable.acts me) (Others .reliable me) (fun _ _ => True) post w

/-- A call to the store that is answered, as it always is. -/
theorem proceeds_store {α : Type} {call : StoreCall} {k : call.Reply → Service JobError α}
    {P : Scene → Prop} {post : Except JobError α → Scene → Prop}
    (hP : Stable (Others .reliable me) P) (hw : P w)
    (hnext : ∀ u v reply now, P u → Surroundings.reliable.acts me (.store call) (.ok reply) u v →
      reply = (u.tables.serve now call).1 → v.tables = (u.tables.serve now call).2 →
        Proceeds me (k reply).run post v) : Proceeds me (Service.store call >>= k).run post w := by
  refine Meets.store hP hw ?_ fun failure u v _ hacts => absurd hacts.1 id
  intro reply u v hu hacts
  obtain ⟨now, hreply, htables⟩ := Surroundings.acts_ok hacts
  exact ⟨trivial, hnext u v reply now hu hacts hreply htables⟩

/-- The row of a job is read as it is. -/
theorem proceeds_get {P : Scene → Prop} {Q : Option Job → Scene → Prop}
    (hP : Stable (Others .reliable me) P) (hQ : ∀ row, Stable (Others .reliable me) (Q row))
    (hw : P w)
    (hread : ∀ u v row, P u → Surroundings.reliable.acts me (.store (.job job)) (.ok row) u v →
      v.tables = u.tables → row = u.tables.job? job → Q row v) :
    Proceeds me (JobControl.get job).run (fun result => Q result.toOption) w := by
  apply proceeds_store hP hw
  intro u v row now hu hacts hrow htables
  have hv := hread u v row hu hacts htables hrow
  cases row with
  | none => exact Meets.pure (hQ none) hv
  | some j => exact Meets.pure (hQ (some j)) hv

/-- A request that writes nothing spares what an actor spares. -/
theorem Spared.of_tables_eq (hu : Spared me touched u.history)
    (hacts : around.acts actor effect answer u v) (htables : v.tables = u.tables) :
    Spared me touched v.history :=
  hu.next hacts fun _ => by rw [htables]; exact ⟨rfl, .inl rfl⟩

/-- Between its requests, a retry has spared what it may not touch, and waits for its move. -/
def IsPoised (me : Actor) (job : Uuid) (touched : Event → Prop) (s : Scene) : Prop :=
  Spared me touched s.history ∧ Awaits me job s

theorem IsPoised.stable : Stable (Others around me) (IsPoised me job touched) :=
  Spared.stable.and Awaits.stable

/-- A retry was overtaken after it had spared what it may not touch. -/
def IsBeaten (me : Actor) (job : Uuid) (touched : Event → Prop) (s : Scene) : Prop :=
  Spared me touched s.history ∧ Overtaken me job s.history

theorem IsBeaten.stable : Stable (Others around me) (IsBeaten me job touched) :=
  Spared.stable.and Overtaken.stable

def Persists (job : Uuid) (s : Scene) : Prop := s.tables.IsWellFormed ∧ IsPresent job s

theorem Persists.next (hu : Persists job u) (hacts : around.acts actor effect answer u v) :
    Persists job v :=
  ⟨Surroundings.acts_isWellFormed hu.1 hacts, hu.2.next hu.1 hacts⟩

theorem Persists.stable : Stable (Others around me) (Persists job) := by
  rintro u v hu ⟨actor, effect, answer, -, -, hacts⟩
  exact hu.next hacts

/-- What a retry has come to. -/
def Settles (me : Actor) (job : Uuid) (touched : Event → Prop) {α : Type}
    (result : Except JobError α) (s : Scene) : Prop :=
  match result with
  | .ok _ => Persists job s
  | .error _ => IsBeaten me job touched s

theorem Settles.stable {α : Type} (result : Except JobError α) :
    Stable (Others around me) (Settles me job touched result) := by
  cases result with
  | ok a => exact Persists.stable
  | error error => exact IsBeaten.stable

/-- The move of a retry fails only if the job was restarted by somebody else. -/
theorem settles_make (hw : IsPoised me job touched w) :
    Proceeds me (Move.retry.make job).run (Settles me job touched) w := by
  let looked (row : Option Job) (s : Scene) : Prop :=
    IsPoised me job touched s ∧ (¬ Retryable row → Overtaken me job s.history)
  have hlooked : ∀ row, Stable (Others .reliable me) (looked row) := fun row =>
    IsPoised.stable.and fun u v hu hstep hrow => Overtaken.stable (hu hrow) hstep
  have hread : Proceeds me (JobControl.get job).run (fun result => looked result.toOption) w := by
    apply proceeds_get IsPoised.stable hlooked hw
    rintro u v row hu hacts htables rfl
    refine ⟨⟨hu.1.of_tables_eq hacts htables, hu.2.of_jobs_eq hacts (by rw [htables])⟩, ?_⟩
    intro hrow
    have hstopped : ¬ IsStopped job u := fun h => hrow (isStopped_iff.1 h)
    exact (hu.2.stopped.resolve_left hstopped).next hacts
  apply Meets.serviceBind
  apply hread.weaken
  intro result u hu
  obtain ⟨hpoised, hbeaten⟩ := hu
  cases result with
  | error error =>
      refine Meets.pure (Settles.stable _) ⟨hpoised.1, hbeaten ?_⟩
      rintro ⟨j, status, hrow, -⟩
      cases hrow
  | ok j =>
      apply Meets.liftExcept
      · intro status hcheck
        apply proceeds_store IsPoised.stable hpoised
        intro x y moved now hx hacts hmoved htables
        cases moved with
        | some moved =>
            have hmoves : Event.moved? job ⟨me, .store (.moveJob job Move.retry.sources
                Move.retry.target), .ok (some moved), x.tables, y.tables⟩ =
                  some Move.retry.target := by
              simp [Event.moved?]
            obtain ⟨_, _, _, _, -, hstatus⟩ :=
              Surroundings.acts_of_moved hx.2.wellFormed hacts hmoves
            obtain ⟨k, hk, -⟩ := Option.map_eq_some_iff.1 hstatus
            refine Meets.pure (Settles.stable _) ⟨?_, ?_⟩
            · exact Surroundings.acts_isWellFormed hx.2.wellFormed hacts
            · exact Option.isSome_iff_exists.2 ⟨k, hk⟩
        | none =>
            obtain ⟨hstays, hleaves⟩ := Tables.moveJob_eq_none hmoved.symm
            have hstopped : ¬ IsStopped job x := by
              rintro ⟨source, hsource, hstatus⟩
              obtain ⟨k, hk, hknown⟩ := Option.map_eq_some_iff.1 hstatus
              simpa [Tables.canLeave, hknown, Stored.value?, hsource] using hleaves k hk
            have hsame : y.tables = x.tables := htables.trans hstays
            have hbeaten : IsBeaten me job touched y :=
              ⟨hx.1.of_tables_eq hacts hsame, (hx.2.stopped.resolve_left hstopped).next hacts⟩
            apply Meets.serviceBind
            apply (proceeds_get (Q := fun _ => IsBeaten me job touched) IsBeaten.stable
              (fun _ => IsBeaten.stable) hbeaten ?_).weaken
            · intro result z hz
              cases result with
              | ok k => exact Meets.pure IsBeaten.stable hz
              | error error => exact Meets.pure IsBeaten.stable hz
            · intro z z' row hz hacts htables _
              exact ⟨hz.1.of_tables_eq hacts htables, hz.2.next hacts⟩
      · intro error hcheck
        refine Meets.pure (Settles.stable _) ⟨hpoised.1, hbeaten ?_⟩
        rintro ⟨k, status, hrow, hok⟩
        obtain rfl : j = k := Option.some.inj hrow
        rw [hcheck] at hok
        cases hok

/-- What is left of a retry once it has renewed what it has to. -/
theorem settles_restart (hw : IsPoised me job touched w) :
    Proceeds me
      (do
        let _ ← Move.retry.make job
        let _ ← Service.store (.refreshStats job)
        JobControl.get job : Service JobError Job).run (Settles me job touched) w := by
  apply Meets.serviceBind
  apply (settles_make hw).weaken
  intro made u hu
  cases made with
  | error error => exact Meets.pure IsBeaten.stable hu
  | ok moved =>
      apply proceeds_store Persists.stable hu
      intro x y stats now hx hacts _ _
      let found (row : Option Job) (s : Scene) : Prop := Persists job s ∧ row.isSome = true
      have hfound : ∀ row, Stable (Others .reliable me) (found row) :=
        fun row => Persists.stable.and (stable_const _ _)
      apply (proceeds_get (Q := found) Persists.stable hfound (hx.next hacts) ?_).weaken
      · intro result z hz
        cases result with
        | ok j => exact hz.1
        | error error => cases hz.2
      · rintro z z' row hz hreads - rfl
        exact ⟨hz.next hreads, hz.2⟩

/-- What a retry may touch before it is sure to move its job. -/
def Renews (job : Uuid) (action : RetryAction) (v : Event) : Prop :=
  action = .failed ∧ v.effect = .store (.resetFailed job)

/-- If a retry comes to an error, it has touched nothing, or it was overtaken. -/
def Refuses (me : Actor) (job : Uuid) (action : RetryAction) {α : Type}
    (result : Except JobError α) (s : Scene) : Prop :=
  match result with
  | .ok _ => True
  | .error _ => Spared me (fun _ => False) s.history ∨ IsBeaten me job (Renews job action) s

theorem Refuses.stable {α : Type} {action : RetryAction} (result : Except JobError α) :
    Stable (Others around me) (Refuses me job action result) := by
  cases result with
  | ok a => exact stable_const _ True
  | error error =>
      intro u v hu hstep
      exact hu.imp (fun h => Spared.stable h hstep) fun h => IsBeaten.stable h hstep

theorem refuses_retry {action : RetryAction} (hw : w.tables.IsWellFormed)
    (hspared : Spared me (fun _ => False) w.history) :
    Proceeds me (JobControl.retry job action).run (Refuses me job action) w := by
  let begun (s : Scene) : Prop := s.tables.IsWellFormed ∧ Spared me (fun _ => False) s.history
  let looked (row : Option Job) (s : Scene) : Prop :=
    begun s ∧ (Retryable row → Awaits me job s)
  have hbegun : Stable (Others .reliable me) begun := isWellFormed_stable.and Spared.stable
  have hlooked : ∀ row, Stable (Others .reliable me) (looked row) := fun row =>
    hbegun.and fun u v hu hstep hrow => Awaits.stable (hu hrow) hstep
  have hread : Proceeds me (JobControl.get job).run (fun result => looked result.toOption) w := by
    apply proceeds_get hbegun hlooked ⟨hw, hspared⟩
    rintro u v row hu hacts htables rfl
    have hv := Surroundings.acts_isWellFormed hu.1 hacts
    refine ⟨⟨hv, hu.2.of_tables_eq hacts htables⟩, fun hrow => ⟨hv, ?_, .inl ?_⟩⟩
    · rw [Surroundings.acts_history hacts]
      exact ⟨_, List.mem_cons_self, rfl, rfl⟩
    · exact (isStopped_iff.2 hrow).of_jobs_eq (by rw [htables])
  have hfinal : ∀ {touched : Event → Prop} {u : Scene} {p : Service JobError Job},
      (∀ v, touched v → Renews job action v) →
        Proceeds me p.run (Settles me job touched) u →
          Proceeds me p.run (Refuses me job action) u := by
    intro touched u p htouched hp
    apply hp.weaken
    intro result v hv
    cases result with
    | ok j => trivial
    | error error => exact .inr ⟨hv.1.mono htouched, hv.2⟩
  apply Meets.serviceBind
  apply hread.weaken
  intro result u hu
  obtain ⟨⟨-, hspared⟩, hawaits⟩ := hu
  cases result with
  | error error => exact Meets.pure (Refuses.stable _) (.inl hspared)
  | ok j =>
      apply Meets.liftExcept
      · intro status hcheck
        have hpoised : IsPoised me job (fun _ => False) u :=
          ⟨hspared, hawaits ⟨j, status, rfl, hcheck⟩⟩
        cases action with
        | pending => exact hfinal (fun _ h => absurd h id) (settles_restart hpoised)
        | failed =>
            apply proceeds_store IsPoised.stable hpoised
            intro x y count now hx hacts _ htables
            have hjobs : y.tables.jobs = x.tables.jobs := by
              rw [htables]
              rfl
            refine hfinal (fun _ h => h) (settles_restart ⟨?_, hx.2.of_jobs_eq hacts hjobs⟩)
            refine (hx.1.mono fun _ h => absurd h id).next hacts fun _ => ?_
            exact ⟨hjobs, .inr ⟨rfl, rfl⟩⟩
      · intro error _
        exact Meets.pure (Refuses.stable _) (.inl hspared)

namespace Office

variable {e : Engine} {t : Tables} {o : Office} {place : Nat} {action : RetryAction}

/-- When the store never fails and a retry is refused, it has changed no job, and no item either:
unless it renewed the job's failed items, and after its first look at the job another operator's
resume or retry was faster. -/
theorem Reachable.refused_retry_spares (ht : t.IsWellFormed) (ho : Reachable e .reliable t o)
    {p : Program (Except JobError Job)} {error : JobError}
    (hcall : o.calls[place]? = some (.retry job action, p)) (hends : p.Ends (.error error)) :
    ∀ v ∈ o.scene.history, v.actor = .operator place (.retry job action) →
      v.after.jobs = v.before.jobs ∧
        (v.after.items = v.before.items ∨
          (action = .failed ∧ v.effect = .store (.resetFailed job) ∧
            ∃ x w, [x, w].Sublist o.scene.history ∧
              w.actor = .operator place (.retry job action) ∧ w.effect = .store (.job job) ∧
                x.actor ≠ .operator place (.retry job action) ∧ x.restarts job = true)) := by
  have hbegin : ∀ s : Scene, s.tables.IsWellFormed →
      (∀ v ∈ s.history, v.actor ≠ .operator place (.retry job action)) →
        Proceeds (.operator place (.retry job action)) (JobControl.retry job action).run
          (Refuses (.operator place (.retry job action)) job action) s :=
    fun s hs hnew => refuses_retry hs fun v hv hactor => absurd hactor (hnew v hv)
  intro v hv hactor
  rcases (ho.meets_call ht hbegin hcall).result hends with hspared | ⟨hspared, hbeaten⟩
  · obtain ⟨hjobs, hitems⟩ := hspared v hv hactor
    exact ⟨hjobs, .inl (hitems.resolve_right id)⟩
  · obtain ⟨hjobs, hitems⟩ := hspared v hv hactor
    exact ⟨hjobs, hitems.imp_right fun h => ⟨h.1, h.2, hbeaten⟩⟩

end Office

namespace Rehearsal

open Office (Reachable played reachable_played)

/-- The only item fails and then its job.  A retry renews the item, another one does all that it has
to, and then the first one goes on. -/
def raced : List Cue :=
  List.flatten
    [[.beginCall call], .replicate 5 (.call 0), [.beginTick], .replicate 14 .tick, [.beginTick],
      .replicate 8 .tick, [.beginCall (.retry Rehearsal.job .failed)], .replicate 2 (.call 1),
      [.beginCall (.retry Rehearsal.job .failed)], .replicate 6 (.call 2), [.call 1]]

theorem raced_refused :
    ∃ o, Reachable engine .reliable tables o ∧
      (∃ p error, o.calls[1]? = some (.retry Rehearsal.job .failed, p) ∧ p.Ends (.error error)) ∧
        ∃ v ∈ o.scene.history, v.actor = .operator 1 (.retry Rehearsal.job .failed) ∧
          v.after.items ≠ v.before.items := by
  refine ⟨_, reachable_played reliable_refusing raced, ?_, ?_⟩
  · have hrefused : (played engine refusing tables raced).calls[1]?.any (fun c =>
        c.1 == .retry Rehearsal.job .failed && c.2.result?.any fun r => !r.isOk) = true := by
      decide +kernel
    obtain ⟨⟨call, p⟩, hcall, hends⟩ := (Option.any_eq_true _ _).1 hrefused
    simp only [Bool.and_eq_true, beq_iff_eq] at hends
    obtain ⟨rfl, hends⟩ := hends
    obtain ⟨result, hresult, herror⟩ := (Option.any_eq_true _ _).1 hends
    cases result with
    | ok j => cases herror
    | error error => exact ⟨p, error, hcall, Program.ends_of_result? hresult⟩
  · have hrenews : (played engine refusing tables raced).scene.history.any (fun v =>
        v.actor == .operator 1 (.retry Rehearsal.job .failed) &&
          (v.before.countOf Rehearsal.job .failed == 1 &&
            v.after.countOf Rehearsal.job .failed == 0)) = true := by
      decide +kernel
    obtain ⟨v, hv, hcounts⟩ := List.any_eq_true.1 hrenews
    simp only [Bool.and_eq_true, beq_iff_eq] at hcounts
    obtain ⟨hactor, hbefore, hafter⟩ := hcounts
    refine ⟨v, hv, hactor, fun hsame => ?_⟩
    rw [Tables.countOf, Tables.itemsOf, hsame] at hafter
    rw [Tables.countOf, Tables.itemsOf] at hbefore
    omega

end Rehearsal

namespace Office

/-- A retry that was refused had renewed the only item before the job was restarted. -/
theorem renewed_and_refused :
    Rehearsal.tables.IsWellFormed ∧
      ∃ o, Reachable Rehearsal.engine .reliable Rehearsal.tables o ∧
        (∃ p error, o.calls[1]? = some (.retry Rehearsal.job .failed, p) ∧
          p.Ends (.error error)) ∧
        ∃ v ∈ o.scene.history, v.actor = .operator 1 (.retry Rehearsal.job .failed) ∧
          v.after.items ≠ v.before.items ∧ v.after.jobs = v.before.jobs ∧
            ∃ x ∈ o.scene.history, x.actor ≠ .operator 1 (.retry Rehearsal.job .failed) ∧
              x.restarts Rehearsal.job = true := by
  have ht := Rehearsal.isWellFormed
  obtain ⟨o, ho, ⟨p, error, hcall, hends⟩, v, hv, hactor, hchanged⟩ := Rehearsal.raced_refused
  obtain ⟨hjobs, hitems⟩ := Reachable.refused_retry_spares ht ho hcall hends v hv hactor
  obtain ⟨-, -, x, w, hsub, -, -, hother, hrestarts⟩ := hitems.resolve_left hchanged
  have hx : x ∈ o.scene.history := hsub.subset List.mem_cons_self
  exact ⟨ht, o, ho, ⟨p, error, hcall, hends⟩, v, hv, hactor, hchanged, hjobs, x, hx, hother,
    hrestarts⟩

/-- It is not so that a refused retry never changes an item. -/
theorem may_renew_though_refused :
    ¬ ∀ (e : Engine) (t : Tables) (o : Office), t.IsWellFormed → Reachable e .reliable t o →
      ∀ (place : Nat) (job : Uuid) (action : RetryAction) (p : Program (Except JobError Job))
        (error : JobError), o.calls[place]? = some (.retry job action, p) →
          p.Ends (.error error) → ∀ v ∈ o.scene.history,
            v.actor = .operator place (.retry job action) →
              v.after.jobs = v.before.jobs ∧ v.after.items = v.before.items := by
  intro hclaim
  obtain ⟨o, ho, ⟨p, error, hcall, hends⟩, v, hv, hactor, hchanged⟩ := Rehearsal.raced_refused
  obtain ⟨-, hsame⟩ :=
    hclaim _ _ o Rehearsal.isWellFormed ho 1 _ _ p error hcall hends v hv hactor
  exact hchanged hsame

end Office

end Mailroom
