import Mailroom.Proofs.Concurrency.Alone
import Mailroom.Proofs.Concurrency.Completion
import Mailroom.Proofs.Jobs.Retrying

/-!
Retries by themselves.  Main statement: a retry succeeds exactly if its job is there and has
stopped; it sets the job running and makes exactly the failed items of the job pending again, if
they are to be tried once more, and a refused retry leaves all tables as they are.
-/

namespace Mailroom

open JobControl (Move)
open Program (Completes completes_pure)
open Service (Gives completes_found_bind completes_liftExcept completes_of_bind completes_store)

namespace Tables

variable {t : Tables} {job : Uuid} {now : Timestamp}

theorem find?_updateFirst {α : Type} {test : α → Bool} {change : α → α} {rows : List α} {r : α}
    (hr : rows.find? test = some r) (hchange : test (change r) = true) :
    (updateFirst test change rows).find? test = some (change r) := by
  induction rows with
  | nil => cases hr
  | cons row rows ih =>
      by_cases hrow : test row = true
      · obtain rfl : row = r := by simpa [List.find?_cons, hrow] using hr
        simp [updateFirst, hrow, hchange]
      · have hskip : test row = false := by simpa using hrow
        simp only [List.find?_cons, hskip] at hr
        simp [updateFirst, hskip, ih hr]

/-- A search that the change of a row does not concern. -/
theorem find?_updateFirst_of_ne {α : Type} {test other : α → Bool} {change : α → α} {rows : List α}
    (hne : ∀ r, test r = true → other r = false ∧ other (change r) = false) :
    (updateFirst test change rows).find? other = rows.find? other := by
  induction rows with
  | nil => rfl
  | cons row rows ih =>
      by_cases hrow : test row = true
      · obtain ⟨hbefore, hafter⟩ := hne row hrow
        simp [updateFirst, hrow, hbefore, hafter]
      · have hskip : test row = false := by simpa using hrow
        simp only [updateFirst, hskip, Bool.false_eq_true, if_false, List.find?_cons, ih]

/-- Two changes of the first row put the outcome in its place. -/
theorem updateFirst_updateFirst {α : Type} {test : α → Bool} {f g : α → α} {rows : List α} {r : α}
    (hr : rows.find? test = some r) (hf : test (f r) = true) :
    updateFirst test g (updateFirst test f rows) = updateFirst test (fun _ => g (f r)) rows := by
  induction rows with
  | nil => cases hr
  | cons row rows ih =>
      by_cases hrow : test row = true
      · obtain rfl : row = r := by simpa [List.find?_cons, hrow] using hr
        simp [updateFirst, hrow, hf]
      · have hskip : test row = false := by simpa using hrow
        simp only [List.find?_cons, hskip] at hr
        simp [updateFirst, hskip, ih hr]

theorem job?_updateJob {change : Job → Job} {j : Job} (hj : t.job? job = some j)
    (hid : (change j).id = j.id) : (t.updateJob job change).job? job = some (change j) := by
  rw [job?] at hj
  have htest := List.find?_some hj
  exact find?_updateFirst hj (by simpa [hid] using htest)

end Tables

/-- What a retry of a job makes of an item: a failed one of the job's is to be sent anew, if the
failed ones are to be tried once more. -/
def RetryAction.requeued (action : RetryAction) (job : Uuid) (now : Timestamp) (i : Item) : Item :=
  if action = .failed ∧ i.jobId = job ∧ i.status = .known .failed then
    { i with
      status := .known .pending
      remoteId := none
      lastError := none
      checkedAt := none
      updatedAt := now }
  else i

/-- The counts of a job after a retry, by the items that there were before it. -/
def RetryAction.recount (action : RetryAction) (t : Tables) (job : Uuid) : JobStats :=
  let count := t.countOf job
  let total := (t.itemsOf job).length
  match action with
  | .failed => ⟨total, count .pending + count .failed, count .queued, count .sent, 0⟩
  | .pending => ⟨total, count .pending, count .queued, count .sent, count .failed⟩

/-- The tables after a retry, which has put a job in the place of its stored row: the job runs, its
items are requeued and counted, and all else is as it was. -/
structure IsRestarted (action : RetryAction) (job : Uuid) (t t' : Tables) (row j : Job) : Prop where
  stored : t'.job? job = some j
  running : j.status = .known .running
  uncompleted : j.completedAt = none
  started : j.startedAt.isSome ∧ ∀ time, row.startedAt = some time → j.startedAt = some time
  counted : j.stats = action.recount t job
  content : ∃ now, j =
    { row with
      status := j.status, startedAt := j.startedAt, completedAt := j.completedAt, stats := j.stats
      updatedAt := now }
  items : ∃ now, t'.items = t.items.map (action.requeued job now)
  jobs : t'.jobs = Tables.updateFirst (fun k => k.id == job) (fun _ => j) t.jobs
  others : ∀ id, id ≠ job → t'.job? id = t.job? id
  rest : t' = { t with jobs := t'.jobs, items := t'.items }

namespace Tables

variable {t : Tables} {job : Uuid} {now : Timestamp} {action : RetryAction}

@[simp] theorem requeued_jobId (i : Item) : (action.requeued job now i).jobId = i.jobId := by
  unfold RetryAction.requeued
  split <;> rfl

theorem requeued_pending : RetryAction.requeued .pending job now = id := by
  funext i
  simp [RetryAction.requeued]

theorem resetFailed_eq (t : Tables) :
    (t.resetFailed job now).2 =
      { t with items := t.items.map (RetryAction.requeued .failed job now) } := by
  have hsame : (fun i => if isFailure job i then renewed now i else i) =
      RetryAction.requeued .failed job now := by
    funext i
    simp [isFailure, renewed, RetryAction.requeued]
  rw [resetFailed, hsame]

theorem itemsOf_requeued {t' : Tables} (h : t'.items = t.items.map (action.requeued job now)) :
    t'.itemsOf job = (t.itemsOf job).map (action.requeued job now) := by
  rw [itemsOf, h, List.filter_map, itemsOf]
  congr 1
  exact List.filter_congr fun i _ => by simp

/-- Among the items of a job, those that failed count as pending when they are requeued. -/
theorem countP_requeued {items : List Item} (hown : ∀ i ∈ items, i.jobId = job)
    (status : ItemStatus) :
    (items.map (RetryAction.requeued .failed job now)).countP
        (fun i => i.status == .known status) =
      if status = .failed then 0
      else items.countP (fun i => i.status == .known status) +
        if status = .pending then items.countP (fun i => i.status == .known .failed) else 0 := by
  induction items with
  | nil => cases status <;> rfl
  | cons i rest ih =>
      have hrest := ih fun k hk => hown k (List.mem_cons_of_mem i hk)
      have hjob : i.jobId = job := hown i List.mem_cons_self
      rw [List.map_cons, List.countP_cons, hrest]
      simp only [List.countP_cons]
      by_cases hfailed : i.status = .known .failed
      · cases status <;> simp [RetryAction.requeued, hjob, hfailed]
        omega
      · cases status <;> simp [RetryAction.requeued, hfailed]
        omega

/-- The counts are those of the requeued items. -/
theorem statsOf_requeued {t' : Tables} (h : t'.items = t.items.map (action.requeued job now)) :
    t'.statsOf job = action.recount t job := by
  have hitems := itemsOf_requeued h
  rw [statsOf_eq]
  cases action with
  | pending => simp [countOf, hitems, requeued_pending, RetryAction.recount]
  | failed =>
      have hown : ∀ i ∈ t.itemsOf job, i.jobId = job := fun i hi => (mem_itemsOf.1 hi).2
      simp [countOf, hitems, countP_requeued hown, RetryAction.recount]

end Tables

section

variable {actor : Actor} {action : RetryAction} {job : Uuid} {t : Tables} {row : Job}
  {status : JobStatus} {s u v w : Scene}

theorem gives_get {post : Job → Scene → Prop} (hrow : w.tables.job? job = some row)
    (hpost : ∀ v, v.tables = w.tables → post row v) :
    (JobControl.get job).Gives actor w post :=
  .bind (.store fun _ v hv => .found hrow (hpost v hv))

/-- A job that has stopped is set running, and nothing else is changed. -/
theorem gives_make (hrow : w.tables.job? job = some row)
    (hcheck : Move.retry.check row = .ok status) :
    (Move.retry.make job).Gives actor w fun _ v =>
      ∃ now, v.tables = w.tables.updateJob job (Tables.movedTo .running now) := by
  refine .bind (gives_get hrow fun u hu => ?_)
  refine .bind (.ofExcept hcheck ?_)
  refine .bind (.store fun now v hv => ?_)
  obtain ⟨hstatus, hstopped⟩ := check_eq_ok_iff.1 hcheck
  have hleaves : Tables.canLeave Move.retry.sources row = true := by
    simp [Tables.canLeave, hstatus, Stored.value?, hstopped]
  have hmoved : (u.tables.serve now (.moveJob job Move.retry.sources Move.retry.target)) =
      (some (Tables.movedTo .running now row),
        w.tables.updateJob job (Tables.movedTo .running now)) := by
    simp only [Tables.serve, Tables.moveJob, hu, hrow, Option.filter_some, hleaves, if_true]
    rfl
  rw [hmoved] at hv ⊢
  exact .pure ⟨now, hv⟩

/-- A job that has stopped is set running and counted, and nothing else is changed. -/
theorem gives_restart (hrow : w.tables.job? job = some row)
    (hcheck : Move.retry.check row = .ok status) :
    (do
      let _ ← Move.retry.make job
      let _ ← Service.store (.refreshStats job)
      JobControl.get job : Service JobError Job).Gives actor w fun j v =>
        ∃ now later, j =
            { Tables.movedTo .running now row with
              stats := w.tables.statsOf job, updatedAt := later } ∧
          v.tables.job? job = some j ∧
          v.tables = { w.tables with
            jobs := Tables.updateFirst (fun k => k.id == job) (fun _ => j) w.tables.jobs } := by
  refine .bind ((gives_make hrow hcheck).weaken ?_)
  rintro - u ⟨now, hu⟩
  refine .bind (.store fun later v hv => ?_)
  have hmoved : u.tables.job? job = some (Tables.movedTo .running now row) := by
    rw [hu]
    exact Tables.job?_updateJob hrow rfl
  have hcounted : v.tables.job? job = some
      { Tables.movedTo .running now row with
        stats := u.tables.statsOf job, updatedAt := later } := by
    rw [hv]
    exact Tables.job?_updateJob hmoved rfl
  have hstats : u.tables.statsOf job = w.tables.statsOf job := by
    rw [hu]
    rfl
  rw [hstats] at hcounted
  refine gives_get hcounted fun x hx => ⟨now, later, rfl, by rw [hx]; exact hcounted, ?_⟩
  -- both changes of the job's row are one
  rw [Tables.job?] at hrow
  have htest : (row.id == job) = true := by simpa using List.find?_some hrow
  have hjobs := Tables.updateFirst_updateFirst (f := Tables.movedTo .running now)
    (g := fun j => { j with stats := w.tables.statsOf job, updatedAt := later }) hrow htest
  rw [hx, hv, ← hjobs, ← hstats, hu]
  rfl

/-- A job is set running and counted after its items were requeued. -/
theorem isRestarted {t' : Tables} {items : List Item} {now later last : Timestamp} {j : Job}
    (hitems : items = t.items.map (action.requeued job now))
    (hj : j = { Tables.movedTo .running later row with
      stats := { t with items }.statsOf job, updatedAt := last })
    (hstored : t'.job? job = some j)
    (ht' : t' = { t with
      items, jobs := Tables.updateFirst (fun k => k.id == job) (fun _ => j) t.jobs }) :
    IsRestarted action job t t' row j := by
  have htest := hstored
  rw [Tables.job?] at htest
  have hid : (j.id == job) = true := by simpa using List.find?_some htest
  constructor
  case stored => exact hstored
  case running => rw [hj]; rfl
  case uncompleted => rw [hj]; rfl
  case started =>
    have hstarted : j.startedAt = row.startedAt.or (some later) := by rw [hj]; rfl
    rw [hstarted]
    cases row.startedAt with
    | none => simp
    | some time => simp
  case counted =>
    rw [hj]
    exact Tables.statsOf_requeued hitems
  case content => exact ⟨last, by rw [hj]; rfl⟩
  case items => exact ⟨now, by rw [ht', hitems]⟩
  case jobs => rw [ht']
  case others =>
    intro id hne
    rw [ht']
    refine Tables.find?_updateFirst_of_ne fun k hk => ⟨?_, ?_⟩
    · rw [beq_iff_eq] at hk
      simpa [hk] using hne.symm
    · rw [beq_iff_eq] at hid
      simpa [hid] using hne.symm
  case rest => rw [ht']

theorem gives_retry (hrow : s.tables.job? job = some row)
    (hcheck : Move.retry.check row = .ok status) :
    (JobControl.retry job action).Gives actor s fun j v =>
      IsRestarted action job s.tables v.tables row j := by
  refine .bind (gives_get hrow fun u hu => ?_)
  refine .bind (.ofExcept hcheck ?_)
  have hrow' : u.tables.job? job = some row := by rw [hu]; exact hrow
  cases action with
  | pending =>
      refine (gives_restart hrow' hcheck).weaken ?_
      rintro j v ⟨now, later, hj, hstored, hv⟩
      rw [hu] at hj hv
      have hitems :
          s.tables.items = s.tables.items.map (RetryAction.requeued .pending job now) := by
        rw [Tables.requeued_pending, List.map_id]
      exact isRestarted hitems hj hstored hv
  | failed =>
      refine .bind (.store fun now v hv => ?_)
      have hreset : v.tables = { s.tables with
          items := s.tables.items.map (RetryAction.requeued .failed job now) } := by
        rw [hv, hu, ← Tables.resetFailed_eq]
        rfl
      have hrow'' : v.tables.job? job = some row := by rw [hreset]; exact hrow
      refine (gives_restart hrow'' hcheck).weaken ?_
      rintro j w ⟨later, last, hj, hstored, hw⟩
      rw [hreset] at hj hw
      exact isRestarted rfl hj hstored hw

end

section

variable {actor : Actor} {action : RetryAction} {job : Uuid} {s v : Scene}
  {result : Except JobError Job}

theorem tables_of_get
    (hrun : (JobControl.get job).run.Completes (Surroundings.reliable.acts actor) s result v) :
    v.tables = s.tables ∧ ∀ j, result = .ok j → s.tables.job? job = some j := by
  rcases completes_of_bind hrun with ⟨reply, u, hread, hrest⟩ | ⟨error, hread, rfl⟩
  · obtain ⟨answer, hacts, hanswer⟩ := completes_store.1 hread
    cases answer with
    | error failure => exact absurd hacts.1 id
    | ok row =>
        obtain rfl : reply = row := Except.ok.inj hanswer
        obtain ⟨now, hreply, htables⟩ := Surroundings.acts_ok hacts
        have hrow : reply = s.tables.job? job := hreply
        have hu : u.tables = s.tables := htables
        cases reply with
        | none =>
            obtain ⟨rfl, rfl⟩ := completes_pure.1 hrest
            exact ⟨hu, fun j hj => by cases hj⟩
        | some row =>
            obtain ⟨rfl, rfl⟩ := completes_pure.1 hrest
            refine ⟨hu, fun j hj => ?_⟩
            rw [← hrow, Except.ok.inj hj]
  · obtain ⟨answer, hacts, hanswer⟩ := completes_store.1 hread
    cases answer with
    | error failure => exact absurd hacts.1 id
    | ok row => cases hanswer

/-- A retry of a job that is not there or has not stopped is refused, and changes nothing. -/
theorem tables_of_refusal (hjob : ¬ Retryable (s.tables.job? job))
    (hrun : (JobControl.retry job action).run.Completes (Surroundings.reliable.acts actor) s result
      v) : (∃ error, result = .error error) ∧ v.tables = s.tables := by
  rcases completes_of_bind hrun with ⟨row, u, hread, hrest⟩ | ⟨error, hread, rfl⟩
  · obtain ⟨hu, hrow⟩ := tables_of_get hread
    rcases completes_of_bind hrest with ⟨status, x, hcheck, -⟩ | ⟨error, hcheck, rfl⟩
    · obtain ⟨hcheck, -⟩ := completes_liftExcept.1 hcheck
      exact absurd ⟨row, status, hrow row rfl, hcheck.symm⟩ hjob
    · obtain ⟨-, rfl⟩ := completes_liftExcept.1 hcheck
      exact ⟨⟨error, rfl⟩, hu⟩
  · exact ⟨⟨error, rfl⟩, (tables_of_get hread).1⟩

end

/-- A retry comes to an end, whatever the store and the job.  It succeeds exactly if the job is
there and is paused, completed, failed or cancelled; then the job is restarted with exactly its
failed items requeued, or with no item changed if only pending ones are to be sent.  A retry that
does not succeed leaves the tables as they are. -/
theorem JobControl.retry_restarts (job : Uuid) (action : RetryAction) (actor : Actor) (s : Scene) :
    (∃ result v,
      (JobControl.retry job action).run.Completes (Surroundings.reliable.acts actor) s result v) ∧
    ∀ result v,
      (JobControl.retry job action).run.Completes (Surroundings.reliable.acts actor) s result v →
      ((∃ j, result = .ok j) ↔ ∃ row status, s.tables.job? job = some row ∧
        row.status = .known status ∧ status ∈ [.paused, .completed, .failed, .cancelled]) ∧
      (∀ j, result = .ok j → ∃ row, s.tables.job? job = some row ∧
        IsRestarted action job s.tables v.tables row j) ∧
      ∀ error, result = .error error → v.tables = s.tables := by
  refine ⟨⟨_, _, Circumstances.completes (Rehearsal.reliable_fair "waiting") actor _ s⟩, ?_⟩
  intro result v hrun
  have hiff : Retryable (s.tables.job? job) ↔ ∃ row status, s.tables.job? job = some row ∧
      row.status = .known status ∧ status ∈ Move.retry.sources :=
    exists_congr fun row => exists_congr fun status => and_congr_right fun _ => check_eq_ok_iff
  by_cases hjob : Retryable (s.tables.job? job)
  · rcases id hjob with ⟨row, status, hrow, hcheck⟩
    have hgives : (JobControl.retry job action).Gives actor s fun j v =>
        IsRestarted action job s.tables v.tables row j := gives_retry hrow hcheck
    obtain ⟨j, rfl, hj⟩ := hgives.completes hrun
    refine ⟨⟨fun _ => hiff.1 hjob, fun _ => ⟨j, rfl⟩⟩, ?_, fun error herror => by cases herror⟩
    intro k hk
    obtain rfl := Except.ok.inj hk
    exact ⟨row, hrow, hj⟩
  · obtain ⟨⟨error, rfl⟩, hv⟩ := tables_of_refusal hjob hrun
    have hrefused : ∀ j : Job, Except.error error ≠ .ok j := fun j hj => by cases hj
    exact ⟨⟨fun ⟨j, hj⟩ => absurd hj (hrefused j), fun h => absurd (hiff.2 h) hjob⟩,
      fun j hj => absurd hj (hrefused j), fun _ _ => hv⟩

/-- A job that had failed with its only item runs again with the item pending. -/
theorem JobControl.requeued_after_refusals :
    ∃ j v, (JobControl.retry Rehearsal.job .failed).run.Completes
        (Surroundings.reliable.acts (.operator 1 (.retry Rehearsal.job .failed)))
        (Rehearsal.after [Rehearsal.refusing, Rehearsal.refusing]) (.ok j) v ∧
      j.status = .known .running ∧ j.stats = ⟨1, 1, 0, 0, 0⟩ ∧
      v.tables.items.map Item.status = [.known .pending] := by
  obtain ⟨⟨result, v, hrun⟩, hall⟩ := JobControl.retry_restarts Rehearsal.job .failed
    (.operator 1 (.retry Rehearsal.job .failed))
    (Rehearsal.after [Rehearsal.refusing, Rehearsal.refusing])
  obtain ⟨hiff, hdone, -⟩ := hall result v hrun
  have hfailed : ((Rehearsal.after [Rehearsal.refusing, Rehearsal.refusing]).tables.job?
      Rehearsal.job).map Job.status = some (.known .failed) := by
    decide +kernel
  have hitem : (Rehearsal.after [Rehearsal.refusing, Rehearsal.refusing]).tables.items.map
      (fun i => (i.jobId, i.status)) = [(Rehearsal.job, .known .failed)] := by
    decide +kernel
  obtain ⟨row, hrow, hstatus⟩ := Option.map_eq_some_iff.1 hfailed
  obtain ⟨j, rfl⟩ := hiff.2 ⟨row, .failed, hrow, hstatus, by decide⟩
  obtain ⟨_, -, hj⟩ := hdone j rfl
  obtain ⟨now, hitems⟩ := hj.items
  obtain ⟨i, hi, hfields⟩ := List.map_eq_singleton_iff.1 hitem
  obtain ⟨hjob, hstatus⟩ := Prod.mk.inj hfields
  refine ⟨j, v, hrun, hj.running, hj.counted.trans (by decide +kernel), ?_⟩
  rw [hitems, hi]
  simp [RetryAction.requeued, hjob, hstatus]

end Mailroom
