import Mailroom.Proofs.Store.Calls

/-!
The counts of a job's items.  Main statements: they are the numbers of rows in each status, they add
up if every status is known, and an outcome that is read off them means that nothing is pending.
-/

namespace Mailroom

namespace JobStats

variable {statuses : List (Stored ItemStatus)}

/-- The counts of some statuses on top of others. -/
theorem foldl_add (s : JobStats) (statuses : List (Stored ItemStatus)) :
    statuses.foldl (fun s status => s.add status 1) s =
      ⟨s.total + statuses.length, s.pending + statuses.count (.known .pending),
        s.queued + statuses.count (.known .queued), s.sent + statuses.count (.known .sent),
        s.failed + statuses.count (.known .failed)⟩ := by
  induction statuses generalizing s with
  | nil => simp
  | cons status rest ih =>
      rw [List.foldl_cons, ih]
      cases status with
      | other text =>
          simp only [add, List.length_cons, List.count_cons]
          simp
          omega
      | known status =>
          cases status <;>
            · simp only [add, List.length_cons, List.count_cons]
              simp
              omega

theorem ofStatuses_eq (statuses : List (Stored ItemStatus)) :
    ofStatuses statuses =
      ⟨statuses.length, statuses.count (.known .pending), statuses.count (.known .queued),
        statuses.count (.known .sent), statuses.count (.known .failed)⟩ := by
  rw [ofStatuses, foldl_add]
  simp [zero]

/-- Known statuses are counted in one place each. -/
theorem total_ofStatuses (h : ∀ status ∈ statuses, ∃ known, status = .known known) :
    (ofStatuses statuses).total =
      (ofStatuses statuses).pending + (ofStatuses statuses).queued + (ofStatuses statuses).sent +
        (ofStatuses statuses).failed := by
  rw [ofStatuses_eq]
  induction statuses with
  | nil => simp
  | cons status rest ih =>
      have hrest := ih fun other hother => h other (List.mem_cons_of_mem status hother)
      obtain ⟨known, rfl⟩ := h status List.mem_cons_self
      cases known <;>
        · simp only [List.length_cons, List.count_cons] at hrest ⊢
          simp
          omega

theorem outcome_ofStatuses_isSome_iff :
    (ofStatuses statuses).outcome.isSome = true ↔ .known .pending ∉ statuses := by
  rw [ofStatuses_eq, ← List.count_eq_zero]
  unfold outcome
  split
  · rename_i hpending
    simp only [Option.isSome_none, Bool.false_eq_true, false_iff]
    simp only at hpending
    omega
  · rename_i hpending
    simp only at hpending
    constructor
    · intro _
      omega
    · intro _
      split <;> rfl

end JobStats

namespace Tables

variable {t : Tables} {job : Uuid}

theorem mem_itemsOf {i : Item} : i ∈ t.itemsOf job ↔ i ∈ t.items ∧ i.jobId = job := by
  simp [itemsOf]

def countOf (t : Tables) (job : Uuid) (status : ItemStatus) : Nat :=
  (t.itemsOf job).countP fun i => i.status == .known status

theorem statsOf_eq (t : Tables) (job : Uuid) :
    t.statsOf job =
      ⟨(t.itemsOf job).length, t.countOf job .pending, t.countOf job .queued, t.countOf job .sent,
        t.countOf job .failed⟩ := by
  have hcount : ∀ status : ItemStatus,
      ((t.itemsOf job).map Item.status).count (.known status) = t.countOf job status := by
    intro status
    rw [List.count_eq_countP, List.countP_map]
    rfl
  simp only [statsOf, JobStats.ofStatuses_eq, hcount, List.length_map]

/-- An outcome that is read off a job's items means that none of them is pending. -/
theorem countOf_pending_of_outcome {outcome : JobStatus}
    (h : (t.statsOf job).outcome = some outcome) : t.countOf job .pending = 0 := by
  rw [statsOf_eq, JobStats.outcome] at h
  split at h
  · cases h
  · rename_i hpending
    simp only at hpending
    omega

/-- The outcome is a failure exactly if something failed and nothing is queued or sent. -/
theorem eq_failed_iff_of_outcome {outcome : JobStatus}
    (h : (t.statsOf job).outcome = some outcome) :
    outcome = .failed ↔
      0 < t.countOf job .failed ∧ t.countOf job .queued = 0 ∧ t.countOf job .sent = 0 := by
  rw [statsOf_eq, JobStats.outcome] at h
  simp only at h
  split at h
  · cases h
  · split at h
    · rename_i hnothing
      obtain rfl := Option.some.inj h
      constructor
      · intro _
        omega
      · intro _
        rfl
    · rename_i hsomething
      obtain rfl := Option.some.inj h
      constructor
      · intro hfailed
        cases hfailed
      · intro hcounts
        omega

/-- The items of a job after a call: each is treated on its own, and only a new job gets new
items. -/
theorem itemsOf_serve {now : Timestamp} (ht : t.IsWellFormed) (c : StoreCall) (job : Uuid) :
    (t.serve now c).2.itemsOf job =
      ((t.itemsOf job).map fun i => c.onItem now i) ++
        (c.newItems t now).filter fun i => i.jobId == job := by
  rw [itemsOf, items_serve ht, List.filter_append, List.filter_map, itemsOf]
  congr 2
  exact List.filter_congr fun i _ => by simp

end Tables

end Mailroom
