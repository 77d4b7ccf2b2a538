import Mailroom.Proofs.Concurrency.Alone
import Mailroom.Proofs.Jobs.Operations

/-!
Counters and outcomes.  Ticks and operators' calls follow one another, beginning with a store that
has no jobs.  Main statements: between them the counters of every job are exact, and a job that has
finished has the outcome of its items.
-/

namespace Mailroom

open Program (Asks Completes)
open Rehearsal (fair forgetful)

variable {e : Engine} {actor : Actor} {job : Uuid} {ids : List Uuid} {s v w : Scene} {α : Type}
  {t : Tables}

theorem InOrder.completes {p : Program α} {a : α} (hasks : p.Asks (Effect.Within .all))
    (hrun : p.Completes (Surroundings.mild.acts actor) w a v) (hw : InOrder w) : InOrder v := by
  induction hrun with
  | ends hends => exact hw
  | turn hturn hacts hrest ih =>
      obtain ⟨hkind, hleft⟩ := hasks.turn hturn
      exact ih hleft (hw.acts hkind hacts)

/-- What is known of the end of a run was so all along. -/
theorem Program.Completes.known {p : Program α} {a : α} (hasks : p.Asks (Effect.Within .all))
    (hrun : p.Completes (Surroundings.mild.acts actor) w a v) (hw : InOrder w)
    (hv : Owns job ids v) : p.Completes (jobActs actor job ids) w a v ∧ Owns job ids w := by
  induction hrun with
  | ends hends => exact ⟨.ends hends, hv⟩
  | turn hturn hacts hrest ih =>
      obtain ⟨hkind, hleft⟩ := hasks.turn hturn
      have hnext := hw.acts hkind hacts
      obtain ⟨hrest, howns⟩ := ih hleft hnext hv
      have hbefore := howns.back hw.wellFormed hacts
      exact ⟨.turn hturn ⟨⟨hw, hbefore⟩, ⟨hnext, howns⟩, hacts⟩ hrest, hbefore⟩

/-- A program that ensures the balance of a job keeps it when it runs by itself. -/
theorem Balanced.completes {p : Program α} {a : α} (hasks : p.Asks (Effect.Within .all))
    (hrun : p.Completes (Surroundings.mild.acts actor) w a v) (hw : InOrder w)
    (hensures : ∀ ids, Ensures actor job ids p (fun _ => Balanced job) w) : Balanced job v := by
  obtain ⟨ids, howns⟩ := exists_owns (InOrder.completes hasks hrun hw).wellFormed job
  exact (hensures ids).completes (hrun.known hasks hw howns).1

namespace Sequential

def HasNoJobs (t : Tables) : Prop := t.jobs = [] ∧ t.items = []

theorem inOrder (ht : HasNoJobs t) (hs : Sequential e .mild t s) : InOrder s := by
  induction hs with
  | start => exact inOrder_of_empty ht.1 ht.2
  | tick _ hrun ih => exact ih.completes e.asks_all hrun
  | call place call _ hrun ih => exact ih.completes call.asks_all hrun

theorem balanced (ht : HasNoJobs t) (hs : Sequential e .mild t s) (job : Uuid) :
    Balanced job s := by
  induction hs with
  | start =>
      have hnone : t.job? job = none := by simp [Tables.job?, ht.1]
      constructor <;> simp [hnone]
  | tick hs hrun ih =>
      exact Balanced.completes e.asks_all hrun (hs.inOrder ht) fun _ => ensures_tick ih
  | call place call hs hrun ih =>
      exact Balanced.completes call.asks_all hrun (hs.inOrder ht) fun _ => ensures_call call ih

/-- Between operations the counters of a job are exact: in all it has as many items as it was made
with, in each status as many as there are rows, and these add up. -/
theorem counters_exact (ht : HasNoJobs t) (hs : Sequential e .mild t s) {j : Job}
    (hj : j ∈ s.tables.jobs) :
    j.stats.total = (s.tables.itemsOf j.id).length ∧
      (∃ v ∈ s.history, v.created? = some (j.id, (s.tables.itemsOf j.id).length)) ∧
      j.stats.pending = s.tables.countOf j.id .pending ∧
      j.stats.queued = s.tables.countOf j.id .queued ∧
      j.stats.sent = s.tables.countOf j.id .sent ∧
      j.stats.failed = s.tables.countOf j.id .failed ∧
      j.stats.total = j.stats.pending + j.stats.queued + j.stats.sent + j.stats.failed := by
  have hinOrder := hs.inOrder ht
  have hrow := (Tables.job?_eq_some_iff hinOrder.wellFormed).2 ⟨hj, rfl⟩
  have hstats := (hs.balanced ht j.id).counted j hrow
  have hknown : ∀ status ∈ (s.tables.itemsOf j.id).map Item.status,
      ∃ known, status = .known known := by
    intro status hstatus
    obtain ⟨i, hi, rfl⟩ := List.mem_map.1 hstatus
    exact hinOrder.known i (Tables.mem_itemsOf.1 hi).1
  have hsum := JobStats.total_ofStatuses hknown
  rw [← Tables.statsOf, ← hstats] at hsum
  rw [Tables.statsOf_eq] at hstats
  refine ⟨?_, hinOrder.created j hj, ?_, ?_, ?_, ?_, hsum⟩ <;> rw [hstats]

/-- What could not be recorded is kept in mind and still counted as pending. -/
theorem counted_while_kept :
    HasNoJobs Rehearsal.tables ∧ ∃ s, Sequential Rehearsal.engine .mild Rehearsal.tables s ∧
      s.accepted.lookup Rehearsal.item = some "m-1" ∧ ∃ j ∈ s.tables.jobs,
        j.stats = ⟨1, 1, 0, 0, 0⟩ ∧ (s.tables.itemsOf j.id).length = 1 ∧
          s.tables.countOf j.id .pending = 1 := by
  have ht : HasNoJobs Rehearsal.tables := ⟨rfl, rfl⟩
  have hs := Rehearsal.sequential [forgetful] (by simp)
  obtain ⟨j, hj, hstats⟩ : ∃ j ∈ (Rehearsal.after [forgetful]).tables.jobs,
      j.stats = ⟨1, 1, 0, 0, 0⟩ := by
    decide +kernel
  obtain ⟨htotal, -, hpending, -⟩ := counters_exact ht hs hj
  simp only [hstats] at htotal hpending
  exact ⟨ht, _, hs, by decide +kernel, j, hj, hstats, by omega, by omega⟩

/-- Between operations a job that has finished has no pending item, and its status is the outcome of
its items: it failed if something failed and nothing is queued or sent. -/
theorem outcome_exact (ht : HasNoJobs t) (hs : Sequential e .mild t s) {j : Job}
    {outcome : JobStatus} (hj : j ∈ s.tables.jobs) (hstatus : j.status = .known outcome)
    (houtcome : outcome = .completed ∨ outcome = .failed) :
    s.tables.countOf j.id .pending = 0 ∧ (s.tables.statsOf j.id).outcome = some outcome ∧
      (outcome = .failed ↔ 0 < s.tables.countOf j.id .failed ∧
        s.tables.countOf j.id .queued = 0 ∧ s.tables.countOf j.id .sent = 0) := by
  have hrow := (Tables.job?_eq_some_iff (hs.inOrder ht).wellFormed).2 ⟨hj, rfl⟩
  have hconcluded := (hs.balanced ht j.id).concluded j outcome hrow hstatus houtcome
  have hpending := Tables.countOf_pending_of_outcome hconcluded
  exact ⟨hpending, hconcluded, Tables.eq_failed_iff_of_outcome hconcluded⟩

/-- A job that had completed with its only item queued has failed since the item bounced. -/
theorem failed_after_bounce :
    HasNoJobs Rehearsal.tables ∧ ∃ s, Sequential Rehearsal.engine .mild Rehearsal.tables s ∧
      ∃ j ∈ s.tables.jobs, j.status = .known .failed ∧ s.tables.countOf j.id .pending = 0 ∧
        (s.tables.statsOf j.id).outcome = some .failed ∧ 0 < s.tables.countOf j.id .failed := by
  have ht : HasNoJobs Rehearsal.tables := ⟨rfl, rfl⟩
  have hs := Rehearsal.sequential [fair "Bounced", fair "waiting", fair "waiting", forgetful]
    (by simp)
  obtain ⟨j, hj, hstatus⟩ : ∃ j ∈ (Rehearsal.after
      [fair "Bounced", fair "waiting", fair "waiting", forgetful]).tables.jobs,
      j.status = .known .failed := by
    decide +kernel
  obtain ⟨hpending, hconcluded, hfailed⟩ := outcome_exact ht hs hj hstatus (.inr rfl)
  exact ⟨ht, _, hs, j, hj, hstatus, hpending, hconcluded, (hfailed.1 rfl).1⟩

end Sequential

end Mailroom
