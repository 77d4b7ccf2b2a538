import Mailroom.Proofs.Concurrency.Scope

/-!
Moves of jobs.  Main statements: a job keeps its status unless it is moved, and whoever moves it
takes one of a few passages from status to status.
-/

namespace Mailroom

def Tables.statusOf (t : Tables) (job : Uuid) : Option (Stored JobStatus) :=
  (t.job? job).map Job.status

namespace Event

def moved? (job : Uuid) : Event → Option JobStatus
  | ⟨_, .store (.moveJob id _ target), .ok (some _), _, _⟩ => if id = job then some target else none
  | _ => none

/-- Whether an operator pauses or cancels a job. -/
def stops (job : Uuid) (v : Event) : Bool :=
  match v.actor with
  | .operator _ (.pause id) | .operator _ (.cancel id) => id == job && (v.moved? job).isSome
  | _ => false

/-- Whether an operator resumes or retries a job. -/
def restarts (job : Uuid) (v : Event) : Bool :=
  match v.actor with
  | .operator _ (.resume id) | .operator _ (.retry id _) => id == job && (v.moved? job).isSome
  | _ => false

theorem moved?_eq_some {job : Uuid} {v : Event} {target : JobStatus}
    (h : v.moved? job = some target) :
    ∃ actor sources row before after,
      v = ⟨actor, .store (.moveJob job sources target), .ok (some row), before, after⟩ := by
  unfold moved? at h
  split at h
  · rename_i actor id sources other row before after
    simp only [Option.ite_none_right_eq_some, Option.some.injEq] at h
    obtain ⟨rfl, rfl⟩ := h
    exact ⟨actor, sources, row, before, after, rfl⟩
  · cases h

theorem stops_eq_true {job : Uuid} {v : Event} (h : v.stops job = true) :
    ∃ place call target, v.actor = .operator place call ∧
      (call = .pause job ∨ call = .cancel job) ∧ v.moved? job = some target := by
  unfold stops at h
  split at h
  · rename_i place id hactor
    simp only [Bool.and_eq_true, beq_iff_eq] at h
    obtain ⟨rfl, hmoved⟩ := h
    obtain ⟨target, hmoved⟩ := Option.isSome_iff_exists.1 hmoved
    exact ⟨place, _, target, hactor, .inl rfl, hmoved⟩
  · rename_i place id hactor
    simp only [Bool.and_eq_true, beq_iff_eq] at h
    obtain ⟨rfl, hmoved⟩ := h
    obtain ⟨target, hmoved⟩ := Option.isSome_iff_exists.1 hmoved
    exact ⟨place, _, target, hactor, .inr rfl, hmoved⟩
  · cases h

end Event

/-- The passages from status to status that an event may take a job through. -/
inductive Passage (job : Uuid) (v : Event) : JobStatus → JobStatus → Prop where
  | promoted (hactor : v.actor = .engine) : Passage job v .scheduled .running
  | finished {target : JobStatus} (hactor : v.actor = .engine)
      (heffect : v.effect = .store (.moveJob job [.running] target)) (htarget : target.IsOutcome) :
      Passage job v .running target
  | revised {source target : JobStatus} (hactor : v.actor = .engine) (hsource : source.IsOutcome)
      (htarget : target.IsOutcome) : Passage job v source target
  | stopped {source target : JobStatus} (hstops : v.stops job = true)
      (htarget : target = .paused ∨ target = .cancelled) : Passage job v source target
  | restarted {source : JobStatus} (hrestarts : v.restarts job = true)
      (hsource : source ∈ JobControl.Move.retry.sources) : Passage job v source .running

namespace Tables

variable {t : Tables} {now : Timestamp} {id : Uuid} {sources : List JobStatus} {target : JobStatus}

theorem moveJob_eq (t : Tables) (id : Uuid) (sources : List JobStatus) (target : JobStatus)
    (now : Timestamp) :
    t.moveJob id sources target now = (none, t) ∨
      ∃ j, t.job? id = some j ∧ canLeave sources j = true ∧
        t.moveJob id sources target now =
          (some (movedTo target now j), t.updateJob id (movedTo target now)) := by
  unfold moveJob
  split
  · exact .inl rfl
  · rename_i j hj
    obtain ⟨hrow, hleaves⟩ := Option.filter_eq_some_iff.1 hj
    exact .inr ⟨j, hrow, hleaves, rfl⟩

theorem moveJob_of_canLeave {j : Job} (hj : t.job? id = some j)
    (hleaves : canLeave sources j = true) :
    t.moveJob id sources target now =
      (some (movedTo target now j), t.updateJob id (movedTo target now)) := by
  simp only [moveJob, hj, Option.filter_some, hleaves, if_true]

theorem moveJob_eq_none (h : (t.moveJob id sources target now).1 = none) :
    (t.moveJob id sources target now).2 = t ∧
      ∀ j, t.job? id = some j → canLeave sources j = false := by
  constructor
  · rcases t.moveJob_eq id sources target now with hstays | ⟨j, -, -, hmoves⟩
    · rw [hstays]
    · rw [hmoves] at h
      cases h
  · intro j hj
    by_contra hleaves
    rw [moveJob_of_canLeave hj (by simpa using hleaves)] at h
    cases h

theorem exists_of_canLeave {j : Job} (h : canLeave sources j = true) :
    ∃ source ∈ sources, j.status = .known source := by
  unfold canLeave at h
  split at h
  · rename_i source hsource
    refine ⟨source, by simpa using h, ?_⟩
    cases hstatus : j.status with
    | known status =>
        rw [hstatus] at hsource
        exact congrArg _ (Option.some.inj hsource)
    | other text =>
        rw [hstatus] at hsource
        cases hsource
  · cases h

end Tables

def IsPresent (job : Uuid) (s : Scene) : Prop := (s.tables.job? job).isSome = true

/-- A row may change only as a call to the store changes it. -/
theorem acts_job? {around : Surroundings} {actor : Actor} {effect : Effect}
    {answer : effect.Answer} {u v : Scene} {id : Uuid} {j : Job} (hu : u.tables.IsWellFormed)
    (hacts : around.acts actor effect answer u v) (hj : u.tables.job? id = some j) :
    v.tables.job? id = some j ∨ ∃ call now, (effect = .store call ∨ effect = .storeLater call) ∧
      v.tables.job? id = some (call.onJob u.tables now j) := by
  rcases Surroundings.acts_tables hacts with htables | ⟨call, now, hcall, htables⟩
  · rw [htables]
    exact .inl hj
  · rw [htables]
    exact .inr ⟨call, now, hcall, Tables.job?_serve_of_some now hu call hj⟩

/-- A job does not vanish. -/
theorem IsPresent.next {around : Surroundings} {actor : Actor} {effect : Effect}
    {answer : effect.Answer} {u v : Scene} {job : Uuid} (hpresent : IsPresent job u)
    (hu : u.tables.IsWellFormed) (hacts : around.acts actor effect answer u v) :
    IsPresent job v := by
  obtain ⟨j, hj⟩ := Option.isSome_iff_exists.1 hpresent
  rw [IsPresent]
  rcases acts_job? hu hacts hj with hv | ⟨call, now, -, hv⟩ <;> rw [hv] <;> rfl

namespace Surroundings

variable {around : Surroundings} {actor : Actor} {effect : Effect} {answer : effect.Answer}
  {u v : Scene} {job : Uuid} {status : Stored JobStatus} {s : Scope}

/-- A job that is moved was in one of the statuses that it may leave. -/
theorem acts_of_moved {target : JobStatus} (hu : u.tables.IsWellFormed)
    (hacts : around.acts actor effect answer u v)
    (hmoved : Event.moved? job ⟨actor, effect, answer, u.tables, v.tables⟩ = some target) :
    ∃ sources source, effect = .store (.moveJob job sources target) ∧ source ∈ sources ∧
      u.tables.statusOf job = some (.known source) ∧
        v.tables.statusOf job = some (.known target) := by
  obtain ⟨_, sources, row, _, _, hevent⟩ := Event.moved?_eq_some hmoved
  cases hevent
  obtain ⟨now, hreply, htables⟩ := acts_ok hacts
  rcases u.tables.moveJob_eq job sources target now with hstays | ⟨j, hj, hleaves, -⟩
  · rw [Tables.serve, hstays] at hreply
    cases hreply
  · obtain ⟨source, hsource, hstatus⟩ := Tables.exists_of_canLeave hleaves
    refine ⟨sources, source, rfl, hsource, by rw [Tables.statusOf, hj, ← hstatus]; rfl, ?_⟩
    have hid := ((Tables.job?_eq_some_iff hu).1 hj).2
    rw [Tables.statusOf, htables, Tables.job?_serve_of_some now hu _ hj]
    simp [StoreCall.onJob, hid, hleaves, Tables.movedTo]

/-- A job that is not moved keeps its status. -/
theorem acts_of_unmoved (hu : u.tables.IsWellFormed) (hacts : around.acts actor effect answer u v)
    (hwithin : effect.Within s)
    (hmoved : Event.moved? job ⟨actor, effect, answer, u.tables, v.tables⟩ = none)
    (hstatus : u.tables.statusOf job = some status) : v.tables.statusOf job = some status := by
  obtain ⟨j, hj, rfl⟩ := Option.map_eq_some_iff.1 hstatus
  obtain ⟨-, rfl⟩ := (Tables.job?_eq_some_iff hu).1 hj
  rcases acts_tables hacts with htables | ⟨call, _, rfl | rfl, -⟩
  · rw [htables]
    exact hstatus
  · cases answer with
    | error failure =>
        rw [acts_error hacts]
        exact hstatus
    | ok reply =>
        obtain ⟨now, hreply, htables⟩ := acts_ok hacts
        have hrow := Tables.job?_serve_of_some now hu call hj
        rw [Tables.statusOf, htables, hrow]
        refine congrArg some ?_
        rcases call.onJob_cases u.tables now j with
          ⟨sources, target, rfl, hleaves, -⟩ | ⟨hsame, -⟩
        · -- the row is moved, so that the reply has it
          have hserved : (u.tables.serve now (.moveJob j.id sources target)).1 =
              some (Tables.movedTo target now j) := by
            rw [Tables.serve, Tables.moveJob_of_canLeave hj hleaves]
          rw [hserved] at hreply
          simp [hreply, Event.moved?] at hmoved
        · exact hsame
  · exact absurd hwithin id

/-- Whoever moves a job within what it may write takes one of the passages. -/
theorem passage_of_moved {source target : JobStatus} {sources : List JobStatus} {event : Event}
    (hwithin : event.effect.Within event.actor.scope)
    (heffect : event.effect = .store (.moveJob job sources target)) (hsource : source ∈ sources)
    (hmoved : event.moved? job = some target) : Passage job event source target := by
  rw [heffect] at hwithin
  cases hactor : event.actor with
  | engine =>
      rw [hactor] at hwithin
      rcases hwithin with ⟨rfl, rfl⟩ | ⟨htarget, rfl | ⟨current, rfl, hcurrent⟩⟩
      · obtain rfl := List.mem_singleton.1 hsource
        exact .promoted hactor
      · obtain rfl := List.mem_singleton.1 hsource
        exact .finished hactor heffect htarget
      · obtain rfl := List.mem_singleton.1 hsource
        exact .revised hactor hcurrent htarget
  | operator place call =>
      rw [hactor] at hwithin
      obtain ⟨m, hm, rfl, rfl⟩ := hwithin
      cases call with
      | create r registry standard => cases hm
      | pause id =>
          obtain ⟨rfl, rfl⟩ := Prod.mk.inj (Option.some.inj hm)
          exact .stopped (by simp [Event.stops, hactor, hmoved]) (.inl rfl)
      | cancel id =>
          obtain ⟨rfl, rfl⟩ := Prod.mk.inj (Option.some.inj hm)
          exact .stopped (by simp [Event.stops, hactor, hmoved]) (.inr rfl)
      | resume id =>
          obtain ⟨rfl, rfl⟩ := Prod.mk.inj (Option.some.inj hm)
          refine .restarted (by simp [Event.restarts, hactor, hmoved]) ?_
          obtain rfl := List.mem_singleton.1 hsource
          decide
      | retry id action =>
          obtain ⟨rfl, rfl⟩ := Prod.mk.inj (Option.some.inj hm)
          exact .restarted (by simp [Event.restarts, hactor, hmoved]) hsource

/-- A job keeps its status or takes one of the passages. -/
theorem acts_passage (hu : u.tables.IsWellFormed) (hacts : around.acts actor effect answer u v)
    (hwithin : effect.Within actor.scope) (hstatus : u.tables.statusOf job = some status) :
    v.tables.statusOf job = some status ∨
      ∃ source target, status = .known source ∧ v.tables.statusOf job = some (.known target) ∧
        Passage job ⟨actor, effect, answer, u.tables, v.tables⟩ source target := by
  cases hmoved : Event.moved? job ⟨actor, effect, answer, u.tables, v.tables⟩ with
  | none => exact .inl (acts_of_unmoved hu hacts hwithin hmoved hstatus)
  | some target =>
      obtain ⟨sources, source, heffect, hsource, hbefore, hafter⟩ := acts_of_moved hu hacts hmoved
      have hsame : status = .known source := Option.some.inj (hstatus.symm.trans hbefore)
      exact .inr ⟨source, target, hsame, hafter, passage_of_moved hwithin heffect hsource hmoved⟩

end Surroundings

end Mailroom
