import Mailroom.Proofs.Jobs.Failing

/-!
The life of a job.  Main statement: however the ticks of an engine and operators' calls take turns,
a job only goes where its status may move to, but for a completed job that a review finds to have
failed; and its instants say when it was started and whether it has ended.
-/

namespace Mailroom

open Program (Asks)

variable {e : Engine} {around : Surroundings} {actor : Actor} {effect : Effect}
  {answer : effect.Answer} {u v : Scene} {job : Uuid} {j k : Job} {source target : JobStatus}
  {sources : List JobStatus} {now : Timestamp}

/-- A request to move a job from completed to failed. -/
def Effect.Condemns (job : Uuid) (effect : Effect) : Prop :=
  effect = .store (.moveJob job [.completed] .failed)

/-- Operators move jobs only where their statuses may move to. -/
theorem JobControl.Move.canMoveTo_target {call : OperatorCall} {m : JobControl.Move}
    (hm : call.move? = some (job, m)) (hsource : source ∈ m.sources) :
    source.canMoveTo m.target = true := by
  have hall : ∀ m' ∈ [Move.pause, .resume, .cancel, .retry], ∀ source' ∈ m'.sources,
      source'.canMoveTo m'.target = true := by decide
  refine hall m ?_ source hsource
  cases call with
  | create r registry standard => cases hm
  | _ =>
      obtain ⟨-, rfl⟩ := Prod.mk.inj (Option.some.inj hm)
      simp

/-- Besides the moves that a status allows for, the engine revises outcomes. -/
theorem canMoveTo_or_revised (hwithin : (Effect.store (.moveJob job sources target)).Within
    actor.scope) (hsource : source ∈ sources) :
    source.canMoveTo target = true ∨
      actor = .engine ∧ sources = [source] ∧ source.IsOutcome ∧ target.IsOutcome := by
  cases actor with
  | engine =>
      rcases hwithin with ⟨rfl, rfl⟩ | ⟨htarget, rfl | ⟨current, rfl, hcurrent⟩⟩
      · obtain rfl := List.mem_singleton.1 hsource
        exact .inl rfl
      · obtain rfl := List.mem_singleton.1 hsource
        rcases htarget with rfl | rfl <;> exact .inl rfl
      · obtain rfl := List.mem_singleton.1 hsource
        exact .inr ⟨rfl, rfl, hcurrent, htarget⟩
  | operator place call =>
      obtain ⟨m, hm, rfl, rfl⟩ := hwithin
      exact .inl (JobControl.Move.canMoveTo_target hm hsource)

/-- A job is in a status, and its instants go with it. -/
structure Job.IsDated (j : Job) (status : JobStatus) : Prop where
  known : j.status = .known status
  completed : j.completedAt.isSome = true ↔
    status = .completed ∨ status = .failed ∨ status = .cancelled
  started : status = .running ∨ status = .paused ∨ status = .completed ∨ status = .failed →
    j.startedAt.isSome = true
  unstarted : status = .draft ∨ status = .scheduled → j.startedAt = none

theorem JobStatus.isTerminal_iff :
    target.isTerminal = true ↔ target = .completed ∨ target = .failed ∨ target = .cancelled := by
  cases target <;> decide

theorem JobStatus.isTerminal_source (h : source.canMoveTo target = true)
    (hrunning : target ≠ .running) (htarget : target.isTerminal = false) :
    source.isTerminal = false := by
  revert h hrunning htarget
  cases source <;> cases target <;> decide

theorem JobStatus.eq_running_of_canMoveTo (h : source.canMoveTo target = true)
    (htarget : target = .paused ∨ target = .completed ∨ target = .failed) : source = .running := by
  revert h htarget
  cases source <;> cases target <;> decide

theorem JobStatus.eq_draft_of_canMoveTo (h : source.canMoveTo target = true)
    (htarget : target = .draft ∨ target = .scheduled) : source = .draft := by
  revert h htarget
  cases source <;> cases target <;> decide

theorem Tables.startedAt_movedTo {time : Timestamp} (hj : j.startedAt = some time) :
    (movedTo target now j).startedAt = some time := by
  simp only [movedTo, hj]
  split <;> rfl

/-- A job that is moved along an edge or between outcomes keeps its instants in step. -/
theorem Job.IsDated.movedTo (hj : j.IsDated source)
    (hedge : source.canMoveTo target = true ∨ source.IsOutcome ∧ target.IsOutcome) :
    (Tables.movedTo target now j).IsDated target := by
  have hstarted : j.startedAt.isSome = true →
      (Tables.movedTo target now j).startedAt.isSome = true := by
    intro hsome
    obtain ⟨time, htime⟩ := Option.isSome_iff_exists.1 hsome
    rw [Tables.startedAt_movedTo htime]
    rfl
  have hbegins : target = .running → (Tables.movedTo target now j).startedAt.isSome = true := by
    rintro rfl
    simp only [Tables.movedTo, if_true]
    cases j.startedAt <;> rfl
  constructor
  case known => rfl
  case completed =>
    rw [← JobStatus.isTerminal_iff]
    by_cases hrunning : target = .running
    · subst hrunning
      simp [Tables.movedTo, JobStatus.isTerminal]
    · by_cases hterminal : target.isTerminal = true
      · simp [Tables.movedTo, hrunning, hterminal]
      · -- the job had not ended before either
        have hbefore : source.isTerminal = false := by
          rcases hedge with hedge | ⟨-, rfl | rfl⟩
          · exact JobStatus.isTerminal_source hedge hrunning (by simpa using hterminal)
          · exact absurd rfl hterminal
          · exact absurd rfl hterminal
        have hsame := hj.completed
        rw [← JobStatus.isTerminal_iff, hbefore] at hsame
        simp only [Tables.movedTo, hrunning, hterminal, if_false]
        exact hsame
  case started =>
    rintro (hrunning | htarget)
    · exact hbegins hrunning
    · apply hstarted
      apply hj.started
      rcases hedge with hedge | ⟨hsource, -⟩
      · exact .inl (JobStatus.eq_running_of_canMoveTo hedge htarget)
      · exact .inr (.inr hsource)
  case unstarted =>
    intro htarget
    rcases hedge with hedge | ⟨-, houtcome⟩
    · have hdraft := JobStatus.eq_draft_of_canMoveTo hedge htarget
      have hnot : target ≠ .running := by
        rcases htarget with rfl | rfl <;> decide
      simpa [Tables.movedTo, hnot] using hj.unstarted (.inl hdraft)
    · rcases htarget with rfl | rfl <;> cases houtcome <;> contradiction

theorem Job.IsDated.of_created {t : Tables} {n : NewJob} {items : List NewItem}
    (hn : n.status = .scheduled ∨ n.status = .running) :
    (t.createJob n items now).1.IsDated n.status := by
  constructor
  case known => rfl
  all_goals rcases hn with h | h <;> simp [Tables.createJob, h]

/-- What an event may make of the row of a job. -/
structure Event.Advances (v : Event) (job : Uuid) (j k : Job) : Prop where
  status : k.status = j.status ∨ ∃ source target, j.status = .known source ∧
    k.status = .known target ∧ (source.canMoveTo target = true ∨
      source = .completed ∧ target = .failed ∧ v.actor = .engine ∧ v.effect.Condemns job)
  failed : j.status = .known .failed → k.status ≠ .known .completed
  started : ∀ time, j.startedAt = some time → k.startedAt = some time

/-- The row of a job is moved to another status, or it keeps its status and instants. -/
theorem moved_or_kept (hu : u.tables.IsWellFormed) (hacts : around.acts actor effect answer u v)
    (hwithin : effect.Within actor.scope) (hj : u.tables.job? job = some j) :
    ∃ k, v.tables.job? job = some k ∧
      ((∃ sources source target now, effect = .store (.moveJob job sources target) ∧
          source ∈ sources ∧ j.status = .known source ∧ k = Tables.movedTo target now j) ∨
        k.status = j.status ∧ k.startedAt = j.startedAt ∧ k.completedAt = j.completedAt) := by
  rcases acts_job? hu hacts hj with hv | ⟨call, now, rfl | rfl, hv⟩
  · exact ⟨j, hv, .inr ⟨rfl, rfl, rfl⟩⟩
  · obtain ⟨-, rfl⟩ := (Tables.job?_eq_some_iff hu).1 hj
    refine ⟨_, hv, ?_⟩
    rcases call.onJob_cases u.tables now j with ⟨sources, target, rfl, hleaves, hmoved⟩ | hkept
    · obtain ⟨source, hsource, hstatus⟩ := Tables.exists_of_canLeave hleaves
      exact .inl ⟨sources, source, target, now, rfl, hsource, hstatus, hmoved⟩
    · exact .inr hkept
  · exact absurd hwithin id

theorem advances_of_acts (hu : u.tables.IsWellFormed)
    (hacts : around.acts actor effect answer u v) (hwithin : effect.Within actor.scope)
    (hredeems : ¬ effect.Redeems job) (hj : u.tables.job? job = some j) :
    ∃ k, v.tables.job? job = some k ∧
      Event.Advances ⟨actor, effect, answer, u.tables, v.tables⟩ job j k := by
  obtain ⟨k, hk, ⟨sources, source, target, now, rfl, hsource, hstatus, rfl⟩ | hkept⟩ :=
    moved_or_kept hu hacts hwithin hj
  · refine ⟨_, hk, ?_, ?_, fun _ => Tables.startedAt_movedTo⟩
    · rcases canMoveTo_or_revised hwithin hsource with
        hedge | ⟨hactor, rfl, hcurrent, houtcome⟩
      · exact .inr ⟨source, target, hstatus, rfl, .inl hedge⟩
      · rcases hcurrent with rfl | rfl <;> rcases houtcome with rfl | rfl
        · exact .inl hstatus.symm
        · exact .inr ⟨.completed, .failed, hstatus, rfl, .inr ⟨rfl, rfl, hactor, rfl⟩⟩
        · exact absurd rfl hredeems
        · exact .inl hstatus.symm
    · intro hfailed hcompleted
      obtain rfl : source = .failed := by simpa [hstatus] using hfailed
      obtain rfl : target = .completed := by simpa [Tables.movedTo] using hcompleted
      rcases canMoveTo_or_revised hwithin hsource with hedge | ⟨-, rfl, -⟩
      · cases hedge
      · exact hredeems rfl
  · refine ⟨k, hk, .inl hkept.1, ?_, fun time htime => hkept.2.1.trans htime⟩
    intro hfailed hcompleted
    rw [hkept.1, hfailed] at hcompleted
    cases hcompleted

/-- The row of a job that was not there is one that an operator makes. -/
theorem created_of_new (hu : u.tables.IsWellFormed) (hacts : around.acts actor effect answer u v)
    (hwithin : effect.Within actor.scope) (hj : u.tables.job? job = none)
    (hk : v.tables.job? job = some k) :
    ∃ n items now, (n.status = .scheduled ∨ n.status = .running) ∧
      k = (u.tables.createJob n items now).1 := by
  rcases Surroundings.acts_tables hacts with htables | ⟨call, now, rfl | rfl, htables⟩
  · rw [htables, hj] at hk
    cases hk
  · rw [htables] at hk
    rcases Tables.job?_serve_cases hu call hk with ⟨j, hsome, -⟩ | ⟨-, hnew⟩
    · rw [hj] at hsome
      cases hsome
    · cases call with
      | createJob n items =>
          cases actor with
          | engine => exact absurd hwithin id
          | operator place call => exact ⟨n, items, now, hwithin, List.mem_singleton.1 hnew⟩
      | _ => cases hnew
  · exact absurd hwithin id

/-- A step keeps all jobs dated. -/
theorem isDated_of_acts (hu : u.tables.IsWellFormed) (hacts : around.acts actor effect answer u v)
    (hwithin : effect.Within actor.scope) (hall : ∀ j ∈ u.tables.jobs, ∃ status, j.IsDated status) :
    ∀ k ∈ v.tables.jobs, ∃ status, k.IsDated status := by
  intro k hk
  have hrow := (Tables.job?_eq_some_iff (Surroundings.acts_isWellFormed hu hacts)).2 ⟨hk, rfl⟩
  cases hj : u.tables.job? k.id with
  | none =>
      obtain ⟨n, items, now, hn, rfl⟩ := created_of_new hu hacts hwithin hj hrow
      exact ⟨n.status, .of_created hn⟩
  | some j =>
      obtain ⟨status, hdated⟩ := hall j (List.mem_of_find?_eq_some hj)
      obtain ⟨k', hk', hcases⟩ := moved_or_kept hu hacts hwithin hj
      obtain rfl := Option.some.inj (hk'.symm.trans hrow)
      rcases hcases with ⟨sources, source, target, now, rfl, hsource, hstatus, hmoved⟩ | hkept
      · obtain rfl : status = source := by simpa [hdated.known] using hstatus
        have hedge := (canMoveTo_or_revised hwithin hsource).imp_right fun h => h.2.2
        exact ⟨target, hmoved ▸ hdated.movedTo hedge⟩
      · obtain ⟨hsame, hstarted, hcompleted⟩ := hkept
        exact ⟨status, hsame.trans hdated.known, hcompleted ▸ hdated.completed,
          hstarted ▸ hdated.started, hstarted ▸ hdated.unstarted⟩

/-- No part of a tick but the review of jobs asks to move a job from completed to failed: neither
the promotion of jobs, nor the check of an item, nor the drive of jobs. -/
structure Engine.CondemnsInReviews (e : Engine) (job : Uuid) : Prop where
  promote : Engine.promote.run.Asks fun effect => ¬ effect.Condemns job
  check : ∀ i, (e.reconcileItem i).Asks fun effect => ¬ effect.Condemns job
  drive : e.driveAll.run.Asks fun effect => ¬ effect.Condemns job

/-- All may be written, but no job is moved from completed. -/
def Scope.lenient : Scope := { Scope.all with moves := fun _ sources _ => sources ≠ [.completed] }

theorem not_condemns_of_within (hwithin : effect.Within .lenient) : ¬ effect.Condemns job := by
  rintro rfl
  exact hwithin rfl

theorem Engine.condemnsInReviews (e : Engine) (job : Uuid) : e.CondemnsInReviews job := by
  constructor
  case promote =>
    have hasks : Asks (Effect.Within .lenient) promote.run := asks_promote fun _ => nofun
    exact hasks.mono fun _ => not_condemns_of_within
  case check =>
    intro i
    have hasks : Asks (Effect.Within .lenient) (e.reconcileItem i) := e.asks_reconcileItem trivial
    exact hasks.mono fun _ => not_condemns_of_within
  case drive =>
    have hasks : Asks (Effect.Within .lenient) e.driveAll.run :=
      e.asks_driveAll (fun _ => ⟨trivial, trivial⟩) (fun _ => trivial) fun _ _ _ => nofun
    exact hasks.mono fun _ => not_condemns_of_within

namespace Office

open Rehearsal (fair)

variable {t : Tables} {o : Office}

/-- All jobs are dated. -/
theorem Reachable.isDated (ht : Sequential.HasNoJobs t) (ho : Reachable e around t o) :
    ∀ j ∈ o.scene.tables.jobs, ∃ status, j.IsDated status := by
  induction ho with
  | refl => simp [opening, ht.1]
  | tail ho hstep ih =>
      rcases hstep.scene_eq_or_acts with hscene | ⟨actor, effect, answer, hacts⟩
      · rw [hscene]
        exact ih
      · have hwithin := Reachable.within_of_acts (ho.tail hstep) hacts
        have hu := Reachable.isWellFormed (Tables.isWellFormed_of_empty ht.1 ht.2) ho
        exact isDated_of_acts hu hacts hwithin ih

/-- Whatever takes turns, a job keeps its status or moves along an edge, but for a completed job
that a review of the engine moves to failed; a failed job is never moved to completed.  An instant
at which a job was started is kept, and the instants of every job go with its status. -/
theorem Reachable.jobs_advance (ht : Sequential.HasNoJobs t) (ho : Reachable e around t o) :
    (∀ v ∈ o.scene.history, ∀ job j, v.before.job? job = some j →
      ∃ k, v.after.job? job = some k ∧ v.Advances job j k) ∧
    (∀ job, e.CondemnsInReviews job) ∧
    ∀ j ∈ o.scene.tables.jobs, ∃ status, j.IsDated status := by
  refine ⟨fun v hv job j hj => ?_, e.condemnsInReviews, ho.isDated ht⟩
  obtain ⟨later, earlier, hsplit⟩ := List.append_of_mem hv
  obtain ⟨o₁, o₂, ho₁, ho₂, hacts, -, hbefore, -, hafter⟩ := ho.past hsplit
  have hu := ho₁.isWellFormed (Tables.isWellFormed_of_empty ht.1 ht.2)
  have hredeems := (ho.unredeemed ht job).history v hv
  rw [← hbefore] at hj
  have hadvances := advances_of_acts hu hacts (ho₂.within_of_acts hacts) hredeems hj
  rw [hbefore, hafter] at hadvances
  exact hadvances

/-- A job that had completed with its only item queued has failed since the item bounced. -/
theorem condemned_after_bounce :
    Sequential.HasNoJobs Rehearsal.tables ∧
      ∃ o, Reachable Rehearsal.engine .reliable Rehearsal.tables o ∧
        (∃ v ∈ o.scene.history, ∃ j k : Job, v.before.job? Rehearsal.job = some j ∧
          v.after.job? Rehearsal.job = some k ∧ j.status = .known .completed ∧
          k.status = .known .failed ∧ v.actor = .engine ∧ v.effect.Condemns Rehearsal.job) ∧
        ∃ j ∈ o.scene.tables.jobs, j.IsDated .failed ∧ j.completedAt.isSome = true := by
  have ht : Sequential.HasNoJobs Rehearsal.tables := ⟨rfl, rfl⟩
  obtain ⟨o, ho, -, hscene⟩ := Rehearsal.reachable_among .reliable
    [fair "Bounced", fair "waiting", fair "waiting"]
    (by simp [Rehearsal.reliable_fair])
  obtain ⟨hadvances, -, hdated⟩ := ho.jobs_advance ht
  refine ⟨ht, o, ho, ?_, ?_⟩
  · have hmoves : o.scene.history.any (fun v =>
        v.before.statusOf Rehearsal.job == some (.known .completed) &&
          v.after.statusOf Rehearsal.job == some (.known .failed)) = true := by
      rw [hscene]
      decide +kernel
    obtain ⟨v, hv, hmoved⟩ := List.any_eq_true.1 hmoves
    simp only [Bool.and_eq_true, beq_iff_eq] at hmoved
    obtain ⟨j, hj, hcompleted⟩ := Option.map_eq_some_iff.1 hmoved.1
    obtain ⟨k, hk, hadvance⟩ := hadvances v hv _ j hj
    have hfailed : k.status = .known .failed := by
      simpa [Tables.statusOf, hk] using hmoved.2
    refine ⟨v, hv, j, k, hj, hk, hcompleted, hfailed, ?_⟩
    rcases hadvance.status with hsame | ⟨source, target, hsource, htarget, hedge⟩
    · rw [hsame, hcompleted] at hfailed
      cases hfailed
    · obtain rfl : source = .completed := by simpa [hcompleted] using hsource.symm
      obtain rfl : target = .failed := by simpa [hfailed] using htarget.symm
      exact (hedge.resolve_left (by decide)).2.2
  · obtain ⟨j, hj, hstatus⟩ : ∃ j ∈ o.scene.tables.jobs, j.status = .known .failed := by
      rw [hscene]
      decide +kernel
    obtain ⟨status, hj'⟩ := hdated j hj
    obtain rfl : status = .failed := by simpa [hstatus] using hj'.known.symm
    exact ⟨j, hj, hj', hj'.completed.2 (.inr (.inl rfl))⟩

end Office

end Mailroom
