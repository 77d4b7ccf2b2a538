import Mailroom.Proofs.Delivery.AtMostOnce
import Mailroom.Proofs.Jobs.Rounds

/-!
Reports of ticks.  Main statement: if the engine is not to stop and the store fails at nothing but
the record of what a server took, the report of a tick that nobody interferes with counts the jobs
and items that the tick moved, each of them once, and all items of the batches that were drawn.
-/

namespace Mailroom

open Engine (ItemOutcome)
open History (takings)
open Program (Completes)

variable {e : Engine} {around : Surroundings} {s m r v : Scene} {time : Timestamp}
  {checked report : TickReport}

theorem TickReport.length_of_outcomes (outcomes : List ItemOutcome) :
    (ofOutcomes outcomes).queued + (ofOutcomes outcomes).failed + (ofOutcomes outcomes).unrecorded =
      outcomes.length := by
  induction outcomes with
  | nil => rfl
  | cons outcome rest ih =>
      rw [ofOutcomes_cons, List.length_cons, ← ih]
      cases outcome <;> simp [add, ItemOutcome.report] <;> omega

/-- The reports on all running jobs make one on all items that were drawn. -/
theorem sum_driven (e : Engine) (t : Tables) (v : Scene) :
    TickReport.sum ((t.jobsIn .running).map fun j => e.driven t v j.id) =
      { TickReport.ofOutcomes ((e.drawn t).map fun i => v.outcomeOf i.id) with
        finished := (t.jobsIn .running).countP fun j => (e.conclusion t j.id).isSome } := by
  rw [Engine.drawn, TickReport.sum_eq]
  induction t.jobsIn .running with
  | nil => rfl
  | cons j rest ih =>
      simp only [TickReport.mk.injEq] at ih
      obtain ⟨hpromoted, hreconciled, hqueued, hfailed, hunrecorded, hfinished⟩ := ih
      simp only [List.map_cons, List.sum_cons, List.flatMap_cons, List.map_append, List.countP_cons,
        TickReport.ofOutcomes_append, hpromoted, hreconciled, hqueued, hfailed, hunrecorded,
        hfinished]
      simp [Engine.driven, TickReport.add, TickReport.ofOutcomes, Nat.add_comm]

/-- The counts of disjoint tests add up. -/
theorem countP_add {α : Type} {xs : List α} {p q q' : α → Bool}
    (h : ∀ x ∈ xs, (p x = true ↔ q x = true ∨ q' x = true) ∧ ¬ (q x = true ∧ q' x = true)) :
    xs.countP p = xs.countP q + xs.countP q' := by
  induction xs with
  | nil => rfl
  | cons x rest ih =>
      obtain ⟨⟨hiff, hnot⟩, hrest⟩ := List.forall_mem_cons.1 h
      rw [List.countP_cons, List.countP_cons, List.countP_cons, ih hrest]
      cases hq : q x <;> cases hq' : q' x <;> simp [hq, hq'] at hiff hnot <;> simp [hiff] <;> omega

theorem Tables.hasOutcome_iff {t : Tables} {job : Uuid} :
    t.HasOutcome job ↔
      t.statusOf job = some (.known .completed) ∨ t.statusOf job = some (.known .failed) := by
  constructor
  · rintro ⟨outcome, rfl | rfl, hstatus⟩
    · exact .inl hstatus
    · exact .inr hstatus
  · rintro (hstatus | hstatus)
    · exact ⟨.completed, .inl rfl, hstatus⟩
    · exact ⟨.failed, .inr rfl, hstatus⟩

theorem Engine.isOutcome_conclusion {t : Tables} {job : Uuid} {outcome : JobStatus}
    (h : e.conclusion t job = some outcome) : outcome.IsOutcome := by
  rw [conclusion, Option.ite_none_right_eq_some] at h
  exact JobStats.isOutcome_outcome _ h.2

/-- How many items came from one status to one of some others. -/
def Tables.itemsMoved (t t' : Tables) (source : ItemStatus) (targets : List ItemStatus) : Nat :=
  t.items.countP fun i =>
    i.status == .known source &&
      targets.any fun target => t'.itemStatus i.id == some (.known target)

/-- How many jobs came to one of some statuses from another one. -/
def Tables.jobsArrived (t t' : Tables) (targets : List JobStatus) : Nat :=
  t.jobs.countP fun j =>
    t'.statusOf j.id != some j.status &&
      targets.any fun target => t'.statusOf j.id == some (.known target)

namespace IsTick

theorem promoted_eq (h : IsTick e around s m r v time checked report) :
    s.tables.jobs.countP (Tables.isDue time) =
      s.tables.jobs.countP fun j =>
        j.status == .known .scheduled && m.tables.statusOf j.id == some (.known .running) := by
  apply List.countP_congr
  intro j hj
  have hbefore := Tables.statusOf_of_mem h.wellFormed hj
  constructor
  · intro hdue
    have hrunning := h.promotes.running j (List.mem_filter.2 ⟨hj, hdue⟩)
    simp only [Tables.isDue, Bool.and_eq_true, beq_iff_eq] at hdue
    simp [hdue.1, hrunning]
  · intro hmoved
    simp only [Bool.and_eq_true, beq_iff_eq] at hmoved
    obtain ⟨hscheduled, hrunning⟩ := hmoved
    by_contra hdue
    have hsame : m.tables.statusOf j.id = s.tables.statusOf j.id := by
      apply h.promotes.confined.statusOf
      intro hmem
      exact hdue (List.mem_filter.1 (Tables.mem_of_key h.wellFormed.jobs_nodup hj
        (fun _ => List.mem_of_mem_filter) hmem)).2
    rw [hsame, hbefore, hscheduled] at hrunning
    cases hrunning

theorem drawn_nodup (h : IsTick e around s m r v time checked report) :
    (e.drawn r.tables).Nodup := by
  have hjobs := (Tables.jobsIn_nodup h.checked_wellFormed .running).of_map Job.id
  rw [Engine.drawn, List.nodup_flatMap]
  refine ⟨fun j _ => (Tables.pendingItems_nodup h.checked_wellFormed j.id _).of_map Item.id, ?_⟩
  have hids := List.pairwise_map.1 (Tables.jobsIn_nodup h.checked_wellFormed .running)
  refine hids.imp fun hne i hi hi' => hne ?_
  rw [← (Tables.mem_pendingItems hi).2.1, (Tables.mem_pendingItems hi').2.1]

/-- Items that were not drawn are after the tick what they were after the checks. -/
theorem itemStatus_of_not_drawn (h : IsTick e around s m r v time checked report) {item : Uuid}
    (hout : item ∉ (e.drawn r.tables).map Item.id) :
    v.tables.itemStatus item = r.tables.itemStatus item :=
  h.drives.confined.itemStatus hout

/-- Items that were not queued are after the checks what they were before the tick. -/
theorem itemStatus_of_not_queued (h : IsTick e around s m r v time checked report) {i : Item}
    (hi : i ∈ s.tables.items) (hstatus : i.status ≠ .known .queued) :
    r.tables.itemStatus i.id = some i.status := by
  have hitems := h.promotes.confined.items_eq
  have him : i ∈ m.tables.items := hitems ▸ hi
  rw [h.checks.confined.itemStatus, Tables.itemStatus_of_mem h.promoted_wellFormed him]
  intro hmem
  exact hstatus (Tables.mem_queuedItems (Tables.mem_of_key h.promoted_wellFormed.items_nodup him
    (fun _ hk => (Tables.mem_queuedItems hk).1) hmem)).2

/-- The checks account for what came out of being queued. -/
theorem reconciled_eq (h : IsTick e around s m r v time checked report) :
    checked.reconciled = s.tables.itemsMoved v.tables .queued [.sent, .failed] := by
  have hm := h.promoted_wellFormed
  have hitems : m.tables.items = s.tables.items := h.promotes.confined.items_eq
  -- what was queued was not drawn
  have hlast : ∀ i ∈ m.tables.items, i.status = .known .queued →
      v.tables.itemStatus i.id = r.tables.itemStatus i.id := by
    intro i hi hqueued
    apply h.itemStatus_of_not_drawn
    intro hmem
    have hdrawn : i ∈ e.drawn r.tables :=
      Tables.mem_of_key hm.items_nodup hi (fun _ hk => hitems ▸ (h.mem_drawn hk).1) hmem
    have hpending := (h.mem_drawn hdrawn).2
    rw [hqueued] at hpending
    cases hpending
  rw [h.checks.report_eq, Tables.itemsMoved, ← hitems]
  have hbatch : (m.tables.queuedItems e.settings.reconcileBatchSize).countP
      (fun i => r.tables.itemStatus i.id != some (.known .queued)) =
      (m.tables.queuedItems e.settings.reconcileBatchSize).countP fun i =>
        i.status == .known .queued &&
          [ItemStatus.sent, .failed].any fun target =>
            v.tables.itemStatus i.id == some (.known target) := by
    apply List.countP_congr
    intro i hi
    obtain ⟨hmem, hqueued⟩ := Tables.mem_queuedItems hi
    obtain ⟨moved, hchecked⟩ := h.checks.items i hi
    have hmoves : moved = true ↔ v.tables.itemStatus i.id = some (.known .sent) ∨
        v.tables.itemStatus i.id = some (.known .failed) := by
      rw [hlast i hmem hqueued]
      cases moved with
      | true => exact iff_of_true rfl hchecked
      | false =>
          rw [IsChecked, IsIn] at hchecked
          simp [hchecked]
    rw [bne_iff_ne, ← hchecked.moved_iff, hmoves]
    simp [hqueued]
  rw [hbatch]
  apply countP_eq_of_nodup ((Tables.queuedItems_nodup hm _).of_map Item.id)
    (hm.items_nodup.of_map Item.id)
  intro i hmoved
  simp only [Bool.and_eq_true, beq_iff_eq, List.any_eq_true] at hmoved
  obtain ⟨hqueued, target, htarget, hafter⟩ := hmoved
  refine ⟨fun hi => (Tables.mem_queuedItems hi).1, fun hi => ?_⟩
  by_contra hout
  -- an item that was passed over is queued still
  have hsame : r.tables.itemStatus i.id = m.tables.itemStatus i.id := by
    apply h.checks.confined.itemStatus
    intro hmem
    exact hout (Tables.mem_of_key hm.items_nodup hi (fun _ hk => (Tables.mem_queuedItems hk).1) hmem)
  rw [hlast i hi hqueued, hsame, Tables.itemStatus_of_mem hm hi, hqueued] at hafter
  obtain rfl : ItemStatus.queued = target := by simpa using hafter
  simp at htarget

/-- The items that were drawn account for what came out of being pending. -/
theorem countP_drawn (h : IsTick e around s m r v time checked report) {target : ItemStatus}
    (htarget : target ≠ .pending) :
    (e.drawn r.tables).countP (fun i => v.tables.itemStatus i.id == some (.known target)) =
      s.tables.itemsMoved v.tables .pending [target] := by
  have hdrawn : (e.drawn r.tables).countP
      (fun i => v.tables.itemStatus i.id == some (.known target)) =
      (e.drawn r.tables).countP fun i =>
        i.status == .known .pending &&
          [target].any fun target => v.tables.itemStatus i.id == some (.known target) := by
    apply List.countP_congr
    intro i hi
    simp [(h.mem_drawn hi).2]
  rw [hdrawn, Tables.itemsMoved]
  apply countP_eq_of_nodup h.drawn_nodup (h.wellFormed.items_nodup.of_map Item.id)
  intro i hmoved
  simp only [Bool.and_eq_true, beq_iff_eq, List.any_cons, List.any_nil, Bool.or_false] at hmoved
  obtain ⟨hpending, hafter⟩ := hmoved
  refine ⟨fun hi => (h.mem_drawn hi).1, fun hi => ?_⟩
  by_contra hout
  have hbefore := h.itemStatus_of_not_queued hi (by simp [hpending])
  have hsame : v.tables.itemStatus i.id = r.tables.itemStatus i.id := by
    apply h.itemStatus_of_not_drawn
    intro hmem
    exact hout (Tables.mem_of_key h.wellFormed.items_nodup hi (fun _ hk => (h.mem_drawn hk).1) hmem)
  rw [hsame, hbefore, hpending] at hafter
  exact htarget (by simpa using hafter.symm)

/-- A job came to an outcome if its own was revised, or it was running and is concluded. -/
theorem arrives_iff (h : IsTick e around s m r v time checked report) (job : Uuid) :
    ((v.tables.statusOf job ≠ s.tables.statusOf job ∧ v.tables.HasOutcome job) ↔
      (r.tables.statusOf job ≠ m.tables.statusOf job ∨
        r.tables.statusOf job = some (.known .running) ∧
          (e.conclusion r.tables job).isSome = true)) ∧
      ¬ (r.tables.statusOf job ≠ m.tables.statusOf job ∧
        r.tables.statusOf job = some (.known .running) ∧
          (e.conclusion r.tables job).isSome = true) := by
  by_cases hrunning : r.tables.statusOf job = some (.known .running)
  · have hm := (h.running_iff job).1 hrunning
    obtain ⟨j, hj, rfl⟩ := List.mem_map.1 ((Tables.mem_running h.checked_wellFormed).2 hrunning)
    have hstatus := (h.drives.drives j hj).status
    have hbefore : s.tables.statusOf j.id = some (.known .running) ∨
        s.tables.statusOf j.id = some (.known .scheduled) := by
      by_cases hsame : m.tables.statusOf j.id = s.tables.statusOf j.id
      · exact .inl (hsame.symm.trans hm)
      · exact .inr (h.scheduled_of_promoted hsame).1
    cases hconclusion : e.conclusion r.tables j.id with
    | none =>
        rw [hconclusion, Option.getD_none] at hstatus
        simp [hrunning, hm, hstatus, Tables.hasOutcome_iff]
    | some outcome =>
        rw [hconclusion, Option.getD_some] at hstatus
        have houtcome := Engine.isOutcome_conclusion hconclusion
        have hnew : v.tables.HasOutcome j.id := ⟨outcome, houtcome, hstatus⟩
        have hne : v.tables.statusOf j.id ≠ s.tables.statusOf j.id := by
          rw [hstatus]
          rcases houtcome with rfl | rfl <;> rcases hbefore with h | h <;> simp [h]
        simp [hrunning, hm, hnew, hne]
  · have hv : v.tables.statusOf job = r.tables.statusOf job :=
      h.drives.confined.statusOf fun hmem =>
        hrunning ((Tables.mem_running h.checked_wellFormed).1 hmem)
    by_cases hsame : r.tables.statusOf job = m.tables.statusOf job
    · have hs : m.tables.statusOf job = s.tables.statusOf job := by
        by_contra hne
        exact hrunning (hsame.trans (h.scheduled_of_promoted hne).2)
      rw [hsame, hs] at hrunning
      simp [hrunning, hv, hsame, hs]
    · obtain ⟨hbefore, hafter⟩ := h.checks.outcomes job hsame
      have hs : m.tables.statusOf job = s.tables.statusOf job := by
        by_contra hne
        exact hbefore.not_running (h.scheduled_of_promoted hne).2
      have hnew : v.tables.HasOutcome job := by
        rwa [Tables.HasOutcome, hv]
      simp [hrunning, hv, hnew, ← hs, hsame]

/-- The checks and the drives account for the jobs that came to an outcome. -/
theorem finished_eq (h : IsTick e around s m r v time checked report) :
    checked.finished +
        (r.tables.jobsIn .running).countP (fun j => (e.conclusion r.tables j.id).isSome) =
      s.tables.jobsArrived v.tables [.completed, .failed] := by
  have hm := h.promoted_wellFormed
  have hr := h.checked_wellFormed
  have hids : m.tables.jobs.map Job.id = s.tables.jobs.map Job.id := h.promotes.confined.map_job_id
  have hids' : r.tables.jobs.map Job.id = s.tables.jobs.map Job.id :=
    h.checks.confined.map_job_id.trans hids
  -- all three counts are made over the identifiers of jobs
  have hchecked : checked.finished = (s.tables.jobs.map Job.id).countP fun id =>
      r.tables.statusOf id != m.tables.statusOf id := by
    rw [h.checks.report_eq, ← hids, List.countP_map]
    exact List.countP_congr fun j hj => by
      rw [Function.comp_apply, Tables.statusOf_of_mem hm hj]
  have hdriven : (r.tables.jobsIn .running).countP (fun j => (e.conclusion r.tables j.id).isSome) =
      (s.tables.jobs.map Job.id).countP fun id =>
        r.tables.statusOf id == some (.known .running) && (e.conclusion r.tables id).isSome := by
    have hrunning : (r.tables.jobsIn .running).countP
        (fun j => (e.conclusion r.tables j.id).isSome) =
        ((r.tables.jobsIn .running).map Job.id).countP fun id =>
          r.tables.statusOf id == some (.known .running) && (e.conclusion r.tables id).isSome := by
      rw [List.countP_map]
      apply List.countP_congr
      intro j hj
      have hstatus := (Tables.mem_running hr).1 (List.mem_map_of_mem hj)
      simp [hstatus]
    rw [hrunning]
    apply countP_eq_of_nodup (Tables.jobsIn_nodup hr .running) h.wellFormed.jobs_nodup
    intro id hid
    simp only [Bool.and_eq_true, beq_iff_eq] at hid
    have hmem := (Tables.mem_running hr).2 hid.1
    refine iff_of_true hmem ?_
    obtain ⟨j, hj, rfl⟩ := List.mem_map.1 hmem
    exact hids' ▸ List.mem_map_of_mem (Tables.mem_jobsIn.1 hj).1
  have harrived : s.tables.jobsArrived v.tables [.completed, .failed] =
      (s.tables.jobs.map Job.id).countP fun id =>
        v.tables.statusOf id != s.tables.statusOf id &&
          [JobStatus.completed, .failed].any fun target =>
            v.tables.statusOf id == some (.known target) := by
    rw [Tables.jobsArrived, List.countP_map]
    exact List.countP_congr fun j hj => by
      rw [Function.comp_apply, Tables.statusOf_of_mem h.wellFormed hj]
  rw [hchecked, hdriven, harrived]
  refine (countP_add fun id _ => ?_).symm
  have harrives := h.arrives_iff id
  rw [Tables.hasOutcome_iff] at harrives
  simpa using harrives

/-- As many items are drawn from each running job as wait, up to the size of a batch. -/
theorem length_drawn (h : IsTick e around s m r v time checked report) :
    (e.drawn r.tables).length =
      ((m.tables.jobsIn .running).map fun j =>
        min e.settings.batchSize.toNat (m.tables.countOf j.id .pending)).sum := by
  have hjobs :
      ((r.tables.jobsIn .running).map Job.id).Perm ((m.tables.jobsIn .running).map Job.id) := by
    rw [List.perm_ext_iff_of_nodup (Tables.jobsIn_nodup h.checked_wellFormed .running)
      (Tables.jobsIn_nodup h.promoted_wellFormed .running)]
    intro id
    rw [Tables.mem_running h.checked_wellFormed, Tables.mem_running h.promoted_wellFormed]
    exact h.running_iff id
  have hcount : ∀ id, m.tables.countOf id .pending = (s.tables.waiting id).length := by
    intro id
    rw [Tables.countOf_pending, Tables.waiting, h.promotes.confined.items_eq, Tables.waiting]
  have hsum := (hjobs.map fun id =>
    min e.settings.batchSize.toNat (s.tables.waiting id).length).sum_nat
  rw [List.map_map, List.map_map] at hsum
  simp only [hcount]
  rw [Engine.drawn, List.length_flatMap]
  simp only [h.pendingItems, List.length_take]
  exact hsum

theorem fate_of_drawn (h : IsTick e around s m r v time checked report) {i : Item}
    (hi : i ∈ e.drawn r.tables) : IsFate around i.id (v.outcomeOf i.id) v := by
  obtain ⟨j, hj, hi⟩ := List.mem_flatMap.1 hi
  exact (h.drives.drives j hj).fates i hi

end IsTick

theorem Scene.outcomeOf_eq_queued_iff {item : Uuid} :
    v.outcomeOf item = .queued ↔ v.tables.itemStatus item = some (.known .queued) := by
  unfold outcomeOf
  split <;> simp_all

theorem Scene.outcomeOf_eq_failed_iff {item : Uuid} :
    v.outcomeOf item = .failed ↔ v.tables.itemStatus item = some (.known .failed) := by
  unfold outcomeOf
  split <;> simp_all

/-- A report counts what a tick moved from one scene to another, by way of those after its
promotions and after its checks. -/
structure TickReport.IsAccurate (e : Engine) (s m r v : Scene) (report : TickReport) : Prop where
  promoted : report.promoted =
    s.tables.jobs.countP fun j =>
      j.status == .known .scheduled && m.tables.statusOf j.id == some (.known .running)
  reconciled : report.reconciled = s.tables.itemsMoved v.tables .queued [.sent, .failed]
  queued : report.queued = s.tables.itemsMoved v.tables .pending [.queued]
  failed : report.failed = s.tables.itemsMoved v.tables .pending [.failed]
  unrecorded : report.unrecorded =
    (e.drawn r.tables).countP fun i =>
      !(takings i.id v.history).isEmpty && v.tables.itemStatus i.id == some (.known .pending)
  finished : report.finished = s.tables.jobsArrived v.tables [.completed, .failed]
  drawn : report.queued + report.failed + report.unrecorded =
    ((m.tables.jobsIn .running).map fun j =>
      min e.settings.batchSize.toNat (m.tables.countOf j.id .pending)).sum

theorem IsTick.isAccurate (h : IsTick e around s m r v time checked report)
    (htaken : ∀ item, (v.accepted.lookup item).isSome = true → takings item v.history ≠ []) :
    report.IsAccurate e s m r v := by
  have hchecked := h.checks.report_eq
  have hsum := sum_driven e r.tables v
  have hreport := h.report_eq
  rw [hsum] at hreport
  have hcount : ∀ (outcome : ItemOutcome) (test : Item → Bool),
      (∀ i ∈ e.drawn r.tables, v.outcomeOf i.id = outcome ↔ test i = true) →
      ((e.drawn r.tables).map fun i => v.outcomeOf i.id).count outcome =
        (e.drawn r.tables).countP test := by
    intro outcome test htest
    rw [List.count_eq_countP, List.countP_map]
    exact List.countP_congr fun i hi => by simpa using htest i hi
  have hqueued : report.queued = s.tables.itemsMoved v.tables .pending [.queued] := by
    rw [← h.countP_drawn (by simp), ← hcount .queued _ fun i _ => by
      simp [Scene.outcomeOf_eq_queued_iff], hreport, hchecked]
    simp [TickReport.add, TickReport.ofOutcomes]
  have hfailed : report.failed = s.tables.itemsMoved v.tables .pending [.failed] := by
    rw [← h.countP_drawn (by simp), ← hcount .failed _ fun i _ => by
      simp [Scene.outcomeOf_eq_failed_iff], hreport, hchecked]
    simp [TickReport.add, TickReport.ofOutcomes]
  constructor
  case promoted =>
    rw [← h.promoted_eq, hreport, hchecked]
    simp [TickReport.add, TickReport.ofOutcomes]
  case reconciled =>
    rw [← h.reconciled_eq, hreport]
    simp [TickReport.add, TickReport.ofOutcomes]
  case queued => exact hqueued
  case failed => exact hfailed
  case unrecorded =>
    rw [← hcount .unrecorded _ fun i hi => ?_, hreport, hchecked]
    · simp [TickReport.add, TickReport.ofOutcomes]
    · have hfate := h.fate_of_drawn hi
      cases houtcome : v.outcomeOf i.id with
      | queued =>
          rw [houtcome, IsFate] at hfate
          simp [hfate]
      | failed =>
          rw [houtcome, IsFate] at hfate
          simp [hfate]
      | unrecorded =>
          rw [houtcome] at hfate
          obtain ⟨hpending, hheld, -⟩ := hfate
          simp [hpending, htaken _ hheld]
  case finished =>
    rw [← h.finished_eq, hreport]
    simp [TickReport.add]
  case drawn =>
    have hlength := TickReport.length_of_outcomes ((e.drawn r.tables).map fun i => v.outcomeOf i.id)
    rw [← h.length_drawn, ← List.length_map (fun i : Item => v.outcomeOf i.id), ← hlength, hreport,
      hchecked]
    simp [TickReport.add, TickReport.ofOutcomes]

/-- A server took what is kept in mind between ticks. -/
theorem Tidy.takings_ne_nil {item : Uuid} (h : Tidy e item v)
    (hheld : (v.accepted.lookup item).isSome = true) : takings item v.history ≠ [] := by
  cases h with
  | free _ _ hnone => simp [hnone] at hheld
  | recorded remoteId hstands | kept remoteId hstands => simp [hstands.takings]

namespace Office

variable {t : Tables} {o : Office}

/-- Between two ticks, whatever operators and servers have done: the next tick comes to an end by
itself, and its report counts the jobs that it set running and those that came to an outcome, the
items that it moved, and those that were drawn and taken but wait still.  Each item that was drawn
is counted once, and up to the size of a batch they are drawn from every job that runs after the
promotions. -/
theorem Reachable.report_accurate (ht : t.IsWellFormed) (ho : Reachable e .harsh t o)
    (hidle : o.IsBetweenTicks) :
    (∃ report s, e.tick.Completes (Surroundings.mild.going.acts .engine) o.scene report s) ∧
    ∀ report s, e.tick.Completes (Surroundings.mild.going.acts .engine) o.scene report s →
      ∃ m r,
        (∃ result, Engine.promote.run.Completes (Surroundings.mild.going.acts .engine) o.scene
          result m) ∧
        (∃ result, e.reconcile.run.Completes (Surroundings.mild.going.acts .engine) m result r) ∧
        (∃ result, e.driveAll.run.Completes (Surroundings.mild.going.acts .engine) r result s) ∧
        report.IsAccurate e o.scene m r s := by
  constructor
  · have hfair : ∀ s e, Surroundings.mild e ((Rehearsal.fair "waiting").reaction s e).1 :=
      Circumstances.around_mild fun call hfails => by simp [Rehearsal.fair] at hfails
    exact ⟨_, _, Circumstances.completes (Circumstances.going hfair) .engine e.tick o.scene⟩
  · intro report s hrun
    obtain ⟨m, r, time, checked, htick, hpromote, hcheck, hdrive⟩ :=
      isTick_of_completes (fun _ _ h => h) (ho.isWellFormed ht) hrun
    refine ⟨m, r, hpromote, hcheck, hdrive, htick.isAccurate fun item hheld => ?_⟩
    have hharsh : e.tick.Completes (Surroundings.harsh.acts .engine) o.scene report s :=
      hrun.mono fun _ _ _ _ hacts => ⟨trivial, hacts.2⟩
    obtain ⟨left, hends, hafter⟩ := (ho.step (.beginTick hidle)).tick_of_completes hharsh
    obtain ⟨job, -, hmeets, -⟩ := hafter.orderly_item ht item
    exact (hmeets.result hends).takings_ne_nil hheld

/-- The only item was taken, and the store did not record it. -/
theorem report_of_unrecorded :
    Rehearsal.tables.IsWellFormed ∧
      ∃ o, Reachable Rehearsal.engine .harsh Rehearsal.tables o ∧ o.IsBetweenTicks ∧
        ∃ report s, Rehearsal.engine.tick.Completes (Surroundings.mild.going.acts .engine) o.scene
            report s ∧
          ∃ m r, report.IsAccurate Rehearsal.engine o.scene m r s ∧ report.unrecorded = 1 := by
  have ht := Rehearsal.isWellFormed
  obtain ⟨o, ho, hidle, hscene⟩ := Rehearsal.reachable []
  have hforgetful : ∀ s e, Surroundings.mild e (Rehearsal.forgetful.reaction s e).1 := by
    apply Circumstances.around_mild
    intro call hfails
    cases call with
    | queueItem id remoteId => exact ⟨id, remoteId, rfl⟩
    | _ => simp [Rehearsal.forgetful] at hfails
  have hrun := Circumstances.completes (Circumstances.going hforgetful) .engine
    Rehearsal.engine.tick o.scene
  obtain ⟨-, hall⟩ := Reachable.report_accurate ht ho hidle
  obtain ⟨m, r, -, -, -, haccurate⟩ := hall _ _ hrun
  refine ⟨ht, o, ho, hidle, _, _, hrun, m, r, haccurate, ?_⟩
  rw [hscene]
  decide +kernel

end Office

end Mailroom
