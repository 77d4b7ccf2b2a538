import Mailroom.Proofs.Concurrency.Alone
import Mailroom.Proofs.Concurrency.Completion
import Mailroom.Proofs.Delivery.Checking
import Mailroom.Proofs.Jobs.Counts
import Mailroom.Proofs.Jobs.Promoting

/-!
Ticks by themselves.  Main statement: a tick of an engine that is not to stop promotes the jobs that
are due, checks a batch of queued items and drives the running jobs, and its report puts together
those of its parts.
-/

namespace Mailroom

open Program (Completes completes_map completes_pure)

/-- The same surroundings with an engine that is not to stop. -/
def Surroundings.going (around : Surroundings) : Surroundings
  | .stopping, answer => answer = false
  | effect, answer => around effect answer

theorem Surroundings.going_isMild {around : Surroundings} (hmild : around.IsMild) :
    around.going.IsMild := by
  intro effect answer hgoing
  cases effect with
  | stopping => trivial
  | _ => exact hmild _ answer hgoing

theorem Circumstances.going {c : Circumstances} {around : Surroundings}
    (haround : ∀ s e, around e (c.reaction s e).1) (s : Scene) (e : Effect) :
    around.going e (c.reaction s e).1 := by
  cases e with
  | stopping => rfl
  | _ => exact haround s _

theorem Surroundings.not_stopping (around : Surroundings) : ¬ around.going .stopping true :=
  Bool.noConfusion

variable {e : Engine} {around : Surroundings} {s m r v : Scene} {report : TickReport}

/-- A tick is one part after another. -/
theorem Engine.completes_tick {acts : Acts Scene} (h : e.tick.Completes acts s report v) :
    ∃ promoted m checked r driven, promote.run.Completes acts s promoted m ∧
      e.reconcile.run.Completes acts m checked r ∧ e.driveAll.run.Completes acts r driven v ∧
      report = ((promoted.toOption.getD {}).add (checked.toOption.getD {})).add
        (driven.toOption.getD {}) := by
  have hpart : ∀ {part : Service String TickReport} {u x : Scene} {out : TickReport},
      (reported part).Completes acts u out x →
        ∃ result, part.run.Completes acts u result x ∧ out = result.toOption.getD {} := by
    intro part u x out hrun
    obtain ⟨result, y, hpart, hend⟩ := Completes.of_bind hrun
    obtain ⟨rfl, rfl⟩ := completes_pure.1 hend
    exact ⟨result, hpart, rfl⟩
  obtain ⟨_, m, hfirst, hrest⟩ := Completes.of_bind h
  obtain ⟨_, r, hsecond, hrest⟩ := Completes.of_bind hrest
  obtain ⟨_, x, hthird, hend⟩ := Completes.of_bind hrest
  obtain ⟨rfl, rfl⟩ := completes_pure.1 hend
  obtain ⟨promoted, hpromote, rfl⟩ := hpart hfirst
  obtain ⟨checked, hcheck, rfl⟩ := hpart hsecond
  obtain ⟨driven, hdrive, rfl⟩ := hpart hthird
  exact ⟨promoted, m, checked, r, driven, hpromote, hcheck, hdrive, rfl⟩

/-- A tick went from one scene to another, by way of the scenes after its promotions and after its
checks. -/
structure IsTick (e : Engine) (around : Surroundings) (s m r v : Scene) (time : Timestamp)
    (checked report : TickReport) : Prop where
  wellFormed : s.tables.IsWellFormed
  promoted_wellFormed : m.tables.IsWellFormed
  checked_wellFormed : r.tables.IsWellFormed
  ended_wellFormed : v.tables.IsWellFormed
  promotes : ArePromoted (s.tables.jobs.filter (Tables.isDue time)) s m
  checks : IsPass e m checked r
  drives : AreDriven e around r.tables r
    (.ok (.sum ((r.tables.jobsIn .running).map fun j => e.driven r.tables v j.id))) v
  report_eq : report =
    (TickReport.add { promoted := s.tables.jobs.countP (Tables.isDue time) } checked).add
      (.sum ((r.tables.jobsIn .running).map fun j => e.driven r.tables v j.id))

theorem isTick_of_completes (hmild : around.IsMild) (hs : s.tables.IsWellFormed)
    (h : e.tick.Completes (around.going.acts .engine) s report v) :
    ∃ m r time checked, IsTick e around.going s m r v time checked report ∧
      (∃ result, Engine.promote.run.Completes (around.going.acts .engine) s result m) ∧
      (∃ result, e.reconcile.run.Completes (around.going.acts .engine) m result r) ∧
      ∃ result, e.driveAll.run.Completes (around.going.acts .engine) r result v := by
  have hgoing := Surroundings.going_isMild hmild
  obtain ⟨_, m, _, r, _, hpromote, hcheck, hdrive, rfl⟩ := Engine.completes_tick h
  obtain ⟨hpromoting, hm⟩ := hpromote.telling hs
  obtain ⟨hchecking, hr⟩ := hcheck.telling hm
  obtain ⟨hdriving, hv⟩ := hdrive.telling hr
  obtain ⟨time, rfl, hpromoted⟩ := (promotes_promote hgoing hs).completes hpromoting
  obtain ⟨checked, rfl, hpassed⟩ := (passes_reconcile hgoing hm).completes hchecking
  have hdriven := (drives_driveAll hgoing around.not_stopping hr).completes hdriving
  obtain rfl := hdriven.result
  exact ⟨m, r, time, checked, ⟨hs, hm, hr, hv, hpromoted, hpassed, hdriven, rfl⟩, ⟨_, hpromote⟩,
    ⟨_, hcheck⟩, _, hdrive⟩

/-- The pending items of a job. -/
def Tables.waiting (t : Tables) (job : Uuid) : List Item :=
  t.items.filter fun i => i.jobId == job && i.status == .known .pending

theorem Tables.countOf_pending (t : Tables) (job : Uuid) :
    t.countOf job .pending = (t.waiting job).length := by
  rw [countOf, itemsOf, List.countP_filter, List.countP_eq_length_filter, waiting]
  simp only [Bool.and_comm]

/-- A change of rows that fixes those that pass a test. -/
theorem filter_map_of_fixed {α : Type} {test : α → Bool} {f : α → α} {xs : List α}
    (hsame : ∀ x ∈ xs, test (f x) = test x) (hfixed : ∀ x ∈ xs, test x = true → f x = x) :
    (xs.map f).filter test = xs.filter test := by
  have hfilter : xs.filter (test ∘ f) = xs.filter test := List.filter_congr hsame
  rw [List.filter_map, hfilter]
  conv_rhs => rw [← List.map_id (xs.filter test)]
  apply List.map_congr_left
  intro x hx
  obtain ⟨hmem, htest⟩ := List.mem_filter.1 hx
  exact hfixed x hmem htest

theorem IsChecked.not_pending {item : Uuid} {moved : Bool} (h : IsChecked item moved s) :
    s.tables.itemStatus item ≠ some (.known .pending) := by
  cases moved with
  | false =>
      rw [IsChecked, IsIn] at h
      simp [h]
  | true => rcases h with h | h <;> rw [IsIn] at h <;> simp [h]

/-- What waits is not checked. -/
theorem IsPass.waiting {checked : TickReport} (hpass : IsPass e m checked r)
    (hm : m.tables.IsWellFormed) (hr : r.tables.IsWellFormed) (job : Uuid) :
    r.tables.waiting job = m.tables.waiting job := by
  obtain ⟨f, hf, hitem⟩ := hpass.confined.items
  have hworked : ∀ i ∈ m.tables.items,
      i.id ∈ (m.tables.queuedItems e.settings.reconcileBatchSize).map Item.id →
        i.status ≠ .known .pending ∧ (f i).status ≠ .known .pending := by
    intro i hi hid
    have hbatch : i ∈ m.tables.queuedItems e.settings.reconcileBatchSize :=
      Tables.mem_of_key hm.items_nodup hi (fun _ hk => (Tables.mem_queuedItems hk).1) hid
    have hqueued := (Tables.mem_queuedItems hbatch).2
    obtain ⟨moved, hchecked⟩ := hpass.items i hbatch
    have hrow : r.tables.itemStatus i.id = some (f i).status := by
      rw [← (hitem i).1]
      exact Tables.itemStatus_of_mem hr (hf ▸ List.mem_map_of_mem hi)
    refine ⟨by simp [hqueued], fun hpending => hchecked.not_pending ?_⟩
    rw [hrow, hpending]
  rw [Tables.waiting, hf, Tables.waiting]
  apply filter_map_of_fixed
  · intro i hi
    by_cases hid : i.id ∈ (m.tables.queuedItems e.settings.reconcileBatchSize).map Item.id
    · obtain ⟨hbefore, hafter⟩ := hworked i hi hid
      rw [beq_eq_false_iff_ne.2 hbefore, beq_eq_false_iff_ne.2 hafter, Bool.and_false,
        Bool.and_false]
    · rw [(hitem i).2.2 hid]
  · intro i hi hpending
    simp only [Bool.and_eq_true, beq_iff_eq] at hpending
    exact (hitem i).2.2 fun hid => (hworked i hi hid).1 hpending.2

namespace IsTick

variable {time : Timestamp} {checked : TickReport}

/-- What waits at the beginning of a tick does so until the jobs are driven. -/
theorem waiting (h : IsTick e around s m r v time checked report) (job : Uuid) :
    r.tables.waiting job = s.tables.waiting job := by
  rw [h.checks.waiting h.promoted_wellFormed h.checked_wellFormed, Tables.waiting,
    h.promotes.confined.items_eq, Tables.waiting]

theorem pendingItems (h : IsTick e around s m r v time checked report) (job : Uuid) (limit : Int) :
    r.tables.pendingItems job limit = (s.tables.waiting job).take limit.toNat := by
  rw [← h.waiting]
  rfl

/-- Items that were drawn waited from the beginning. -/
theorem mem_drawn (h : IsTick e around s m r v time checked report) {i : Item}
    (hi : i ∈ e.drawn r.tables) : i ∈ s.tables.items ∧ i.status = .known .pending := by
  obtain ⟨j, -, hi⟩ := List.mem_flatMap.1 hi
  rw [h.pendingItems] at hi
  obtain ⟨hmem, hwaits⟩ := List.mem_filter.1 (List.mem_of_mem_take hi)
  simp only [Bool.and_eq_true, beq_iff_eq] at hwaits
  exact ⟨hmem, hwaits.2⟩

/-- A job that changed its status by the promotions was due. -/
theorem scheduled_of_promoted (h : IsTick e around s m r v time checked report) {job : Uuid}
    (hne : m.tables.statusOf job ≠ s.tables.statusOf job) :
    s.tables.statusOf job = some (.known .scheduled) ∧
      m.tables.statusOf job = some (.known .running) := by
  by_cases hdue : job ∈ (s.tables.jobs.filter (Tables.isDue time)).map Job.id
  · obtain ⟨j, hj, rfl⟩ := List.mem_map.1 hdue
    refine ⟨?_, h.promotes.running j hj⟩
    obtain ⟨hmem, hdue⟩ := List.mem_filter.1 hj
    simp only [Tables.isDue, Bool.and_eq_true, beq_iff_eq] at hdue
    rw [Tables.statusOf_of_mem h.wellFormed hmem, hdue.1]
  · exact absurd (h.promotes.confined.statusOf hdue) hne

/-- Checks leave running jobs running, and set no other running. -/
theorem running_iff (h : IsTick e around s m r v time checked report) (job : Uuid) :
    r.tables.statusOf job = some (.known .running) ↔
      m.tables.statusOf job = some (.known .running) := by
  by_cases hsame : r.tables.statusOf job = m.tables.statusOf job
  · rw [hsame]
  · obtain ⟨hbefore, hafter⟩ := h.checks.outcomes job hsame
    exact iff_of_false hafter.not_running hbefore.not_running

end IsTick

end Mailroom
