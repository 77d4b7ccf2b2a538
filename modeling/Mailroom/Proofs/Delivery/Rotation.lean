import Mathlib.Algebra.Order.Floor.Div
import Mailroom.Proofs.Delivery.Inquiries

/-!
Pass after pass of checks.  Main statement: whatever the servers answer, and whatever operators and
the engine do meanwhile, as many passes as it takes to draw all items of the queue batch by batch
stamp every one of them, if no further item gets into the queue.
-/

namespace Mailroom

open Relation (ReflTransGen)

variable {e : Engine} {around : Surroundings} {mayFail : StoreCall → Prop}
  {times : Nat → Timestamp} {starts ends : Nat → Scene} {passes : Nat} {u v w : Scene}

/-- Between passes operators go on, and the engine does anything but check queued items, as long as
no further item gets into the queue. -/
def Pauses (around : Surroundings) (u v : Scene) : Prop :=
  Others around .engine u v ∨ ∃ effect answer, effect.Within .unchecked ∧
    around.acts .engine effect answer u v ∧
      ∀ i ∈ v.tables.awaiting, ∃ k ∈ u.tables.awaiting, k.id = i.id

theorem Pauses.awaiting_many (hu : u.tables.IsWellFormed) (h : ReflTransGen (Pauses around) u v) :
    v.tables.IsWellFormed ∧ v.tables.awaiting = u.tables.awaiting := by
  induction h with
  | refl => exact ⟨hu, rfl⟩
  | tail _ hstep ih =>
      obtain ⟨hx, hsame⟩ := ih
      rcases hstep with hothers | ⟨effect, answer, hwithin, hacts, hfurther⟩
      · obtain ⟨hv, hlast⟩ := hothers.awaiting hx
        exact ⟨hv, hlast.trans hsame⟩
      · have hlast := awaiting_of_acts hx hacts hwithin (fun _ => by rintro ⟨⟩) (fun _ => id)
          hfurther
        exact ⟨Surroundings.acts_isWellFormed hx hacts, hlast.trans hsame⟩

/-- Some passes follow one another, each stamping at an instant of its own. -/
structure IsRotation (e : Engine) (around : Surroundings) (times : Nat → Timestamp) (passes : Nat)
    (starts ends : Nat → Scene) : Prop where
  passed : ∀ k < passes, e.Passes around (times k) (starts k) (ends k)
  paused : ∀ k, k + 1 < passes → ReflTransGen (Pauses around) (ends k) (starts (k + 1))

/-- After some passes, what of the first queue was not checked since then has become less by as many
batches, and all the rest was drawn. -/
structure HasRotated (e : Engine) (times : Nat → Timestamp) (starts : Nat → Scene) (passes : Nat)
    (s : Scene) : Prop where
  wellFormed : s.tables.IsWellFormed
  length_le : (s.tables.overdue (times 0)).length ≤
    (starts 0).tables.awaiting.length - passes * e.settings.reconcileBatchSize.toNat
  drawn : ∀ i ∈ (starts 0).tables.awaiting, i ∈ s.tables.overdue (times 0) ∨
    ∃ k < passes, i ∈ (starts k).tables.queuedItems e.settings.reconcileBatchSize

namespace HasRotated

theorem start (e : Engine) (hw : (starts 0).tables.IsWellFormed)
    (hpast : ∀ i ∈ (starts 0).tables.awaiting, ∀ checked, i.checkedAt = some checked →
      checked.lt (times 0) = true) : HasRotated e times starts 0 (starts 0) := by
  refine ⟨hw, ?_, fun i hi => .inl (Tables.mem_overdue.2 ⟨hi, ?_⟩)⟩
  · rw [Nat.zero_mul, Nat.sub_zero]
    exact List.length_filter_le _ _
  · unfold Tables.isOverdue
    split
    · rfl
    · rename_i checked hchecked
      exact hpast i hi checked hchecked

theorem of_awaiting (h : HasRotated e times starts passes u) (hv : v.tables.IsWellFormed)
    (hqueue : v.tables.awaiting = u.tables.awaiting) : HasRotated e times starts passes v := by
  have hoverdue : v.tables.overdue (times 0) = u.tables.overdue (times 0) := by
    rw [Tables.overdue, hqueue, Tables.overdue]
  exact ⟨hv, hoverdue ▸ h.length_le, hoverdue ▸ h.drawn⟩

/-- A pass draws the next batch, and what it stamps is not overdue any longer. -/
theorem pass (h : HasRotated e times starts passes (starts passes))
    (hle : (times 0).le (times passes) = true)
    (hdrawn : HasDrawn e (times passes)
      ((starts passes).tables.queuedItems e.settings.reconcileBatchSize) (starts passes) v) :
    HasRotated e times starts (passes + 1) v := by
  have hleft : ∀ i ∈ v.tables.overdue (times 0), i ∈ (starts passes).tables.overdue (times 0) ∧
      i ∉ (starts passes).tables.queuedItems e.settings.reconcileBatchSize := by
    intro i hi
    obtain ⟨hi, hoverdue⟩ := Tables.mem_overdue.1 hi
    rcases hdrawn.old i hi with ⟨hbefore, hout⟩ | hstamped
    · exact ⟨Tables.mem_overdue.2 ⟨hbefore, hoverdue⟩, hout⟩
    · have hnot := Tables.isOverdue_eq_false_iff.2 ⟨_, hstamped, hle⟩
      rw [hnot] at hoverdue
      cases hoverdue
  refine ⟨hdrawn.wellFormed, ?_, fun i hi => ?_⟩
  · have hless := Tables.length_le_of_undrawn h.wellFormed e.settings.reconcileBatchSize (times 0)
      (Tables.overdue_nodup hdrawn.wellFormed (times 0)) hleft
    have hbefore := h.length_le
    rw [Nat.succ_mul]
    omega
  · rcases h.drawn i hi with hoverdue | ⟨k, hk, hdrew⟩
    · by_cases hin : i ∈ (starts passes).tables.queuedItems e.settings.reconcileBatchSize
      · exact .inr ⟨passes, Nat.lt_succ_self passes, hin⟩
      · obtain ⟨hbefore, hoverdue⟩ := Tables.mem_overdue.1 hoverdue
        exact .inl (Tables.mem_overdue.2 ⟨hdrawn.kept i hbefore hin, hoverdue⟩)
    · exact .inr ⟨k, Nat.lt_succ_of_lt hk, hdrew⟩

/-- Nothing is left when there were passes enough. -/
theorem exists_drawn (h : HasRotated e times starts passes v)
    (hbatch : 1 ≤ e.settings.reconcileBatchSize)
    (hpasses : (starts 0).tables.awaiting.length ⌈/⌉ e.settings.reconcileBatchSize.toNat ≤ passes)
    {i : Item} (hi : i ∈ (starts 0).tables.awaiting) :
    ∃ k < passes, i ∈ (starts k).tables.queuedItems e.settings.reconcileBatchSize := by
  have hpositive : 0 < e.settings.reconcileBatchSize.toNat := by omega
  have henough := (ceilDiv_le_iff_le_smul hpositive).1 hpasses
  rw [smul_eq_mul, Nat.mul_comm] at henough
  have hnone : (v.tables.overdue (times 0)).length = 0 := by
    have hlength := h.length_le
    omega
  rcases h.drawn i hi with hoverdue | hdrawn
  · rw [List.length_eq_zero_iff.1 hnone] at hoverdue
    cases hoverdue
  · exact hdrawn

end HasRotated

namespace IsRotation

section

variable (h : IsRotation e (.failing mayFail) times passes starts ends)
  (hlists : ¬ mayFail (.queuedItems e.settings.reconcileBatchSize))
  (hstamps : ∀ ids, ¬ mayFail (.checkItems ids)) (hw : (starts 0).tables.IsWellFormed)
  (hpast : ∀ i ∈ (starts 0).tables.awaiting, ∀ checked, i.checkedAt = some checked →
    checked.lt (times 0) = true)
  (htimes : ∀ k, k + 1 < passes → (times k).lt (times (k + 1)) = true)

include h hlists hstamps hw hpast htimes

theorem hasRotated (k : Nat) (hk : k < passes) :
    (times 0).le (times k) = true ∧ HasRotated e times starts k (starts k) ∧
      HasDrawn e (times k) ((starts k).tables.queuedItems e.settings.reconcileBatchSize) (starts k)
        (ends k) := by
  induction k with
  | zero =>
      exact ⟨Timestamp.le_refl _, .start e hw hpast, (h.passed 0 hk).hasDrawn hlists hstamps hw⟩
  | succ k ih =>
      obtain ⟨hle, hrotated, hdrawn⟩ := ih (by omega)
      obtain ⟨hwellFormed, hqueue⟩ := Pauses.awaiting_many hdrawn.wellFormed (h.paused k hk)
      exact ⟨Timestamp.le_trans hle (Timestamp.le_of_lt (htimes k hk)),
        (hrotated.pass hle hdrawn).of_awaiting hwellFormed hqueue,
        (h.passed (k + 1) hk).hasDrawn hlists hstamps hwellFormed⟩

theorem exists_hasRotated : ∃ s, HasRotated e times starts passes s := by
  cases passes with
  | zero => exact ⟨starts 0, .start e hw hpast⟩
  | succ last =>
      obtain ⟨hle, hrotated, hdrawn⟩ :=
        hasRotated h hlists hstamps hw hpast htimes last (Nat.lt_succ_self last)
      exact ⟨ends last, hrotated.pass hle hdrawn⟩

end

end IsRotation

theorem Surroundings.failing_fair (word : String) (time : Timestamp) (s : Scene) (effect : Effect) :
    Surroundings.failing mayFail effect
      (Circumstances.reaction ⟨Rehearsal.answer word, fun _ => none, time⟩ s effect).1 := by
  cases effect <;> trivial

/-- There may be pass after pass, from any scene on. -/
theorem exists_isRotation (e : Engine) (mayFail : StoreCall → Prop) (times : Nat → Timestamp)
    (passes : Nat) (w : Scene) :
    ∃ starts ends, starts 0 = w ∧ IsRotation e (.failing mayFail) times passes starts ends := by
  have hnext : ∀ (time : Timestamp) s, ∃ s', e.Passes (.failing mayFail) time s s' := by
    intro time s
    let c : Circumstances := ⟨Rehearsal.answer "waiting", fun _ => none, time⟩
    have hacts : ∀ effect x, (Surroundings.failing mayFail).passing time effect
        (c.respond .engine effect x).1 x (c.respond .engine effect x).2 := by
      intro effect x
      refine ⟨x, _, .refl, ⟨?_, ?_⟩, .refl⟩
      · exact Circumstances.acts_respond (Surroundings.failing_fair "waiting" time) effect x
      · rintro ids rfl
        rfl
    exact ⟨_, _, Program.completes_alone hacts e.reconcile.run s⟩
  choose next hnext using hnext
  let run : Nat → Scene := Nat.rec w fun k s => next (times k) s
  exact ⟨run, fun k => run (k + 1), rfl, fun k _ => hnext (times k) (run k), fun k _ => .refl⟩

/-- An item was stamped at an instant from one scene to another. -/
def IsStamped (time : Timestamp) (item : Uuid) (u v : Scene) : Prop :=
  ∃ events, v.history = events ++ u.history ∧ ∃ event ∈ events, event.stampsAt time item

/-- Checks go round the whole queue.  There may be pass after pass from any tables on; and however
they go, as long as the store lists and stamps items and no further item gets into the queue: after
as many passes as it takes to draw the queue in batches every item that was in it has been stamped,
whatever the servers answered about it or about others.  Each pass stamps the batch that it draws
and nothing else, and asks once about each item of the batch whose server is registered. -/
theorem Engine.reconcile_rotates (e : Engine) (mayFail : StoreCall → Prop)
    (hlists : ¬ mayFail (.queuedItems e.settings.reconcileBatchSize))
    (hstamps : ∀ ids, ¬ mayFail (.checkItems ids)) (hbatch : 1 ≤ e.settings.reconcileBatchSize)
    (w : Scene) (hw : w.tables.IsWellFormed) (passes : Nat)
    (hpasses : passes =
      w.tables.items.countP Tables.isAwaiting ⌈/⌉ e.settings.reconcileBatchSize.toNat)
    (times : Nat → Timestamp)
    (htimes : ∀ k, k + 1 < passes → (times k).lt (times (k + 1)) = true)
    (hpast : ∀ i ∈ w.tables.items, ∀ checked, i.checkedAt = some checked →
      checked.lt (times 0) = true) :
    (∃ starts ends, starts 0 = w ∧ IsRotation e (.failing mayFail) times passes starts ends) ∧
    ∀ starts ends, starts 0 = w → IsRotation e (.failing mayFail) times passes starts ends →
      (∀ i ∈ w.tables.items, Tables.isAwaiting i = true →
        ∃ k < passes, IsStamped (times k) i.id (starts k) (ends k)) ∧
      ∀ k < passes, ∃ events, (ends k).history = events ++ (starts k).history ∧
        (∀ item, (∃ event ∈ events, event.stamps item = true) ↔
          item ∈ ((starts k).tables.queuedItems e.settings.reconcileBatchSize).map Item.id) ∧
        (events.filterMap Event.inquiry?).Perm
          (((starts k).tables.queuedItems e.settings.reconcileBatchSize).filterMap e.inquiry?) := by
  constructor
  · exact exists_isRotation e mayFail times passes w
  · rintro starts ends rfl hrun
    have hpast : ∀ i ∈ (starts 0).tables.awaiting, ∀ checked, i.checkedAt = some checked →
        checked.lt (times 0) = true := fun i hi => hpast i (Tables.mem_awaiting.1 hi).1
    have hrotated := hrun.hasRotated hlists hstamps hw hpast htimes
    obtain ⟨s, hlast⟩ := hrun.exists_hasRotated hlists hstamps hw hpast htimes
    have henough :
        (starts 0).tables.awaiting.length ⌈/⌉ e.settings.reconcileBatchSize.toNat ≤ passes := by
      rw [hpasses, Tables.awaiting, List.countP_eq_length_filter]
    refine ⟨fun i hi hawaiting => ?_, fun k hk => ?_⟩
    · obtain ⟨k, hk, hdrawn⟩ :=
        hlast.exists_drawn hbatch henough (Tables.mem_awaiting.2 ⟨hi, hawaiting⟩)
      obtain ⟨events, hhistory, hstamped, -, -⟩ := (hrotated k hk).2.2.events
      exact ⟨k, hk, events, hhistory, hstamped i hdrawn⟩
    · obtain ⟨events, hhistory, hstamped, honly, hasked⟩ := (hrotated k hk).2.2.events
      refine ⟨events, hhistory, fun item => ⟨?_, fun hitem => ?_⟩, hasked⟩
      · rintro ⟨event, hevent, hstamps⟩
        exact honly event hevent item hstamps
      · obtain ⟨i, hi, rfl⟩ := List.mem_map.1 hitem
        obtain ⟨event, hevent, hstamps, -⟩ := hstamped i hi
        exact ⟨event, hevent, hstamps⟩

namespace Rehearsal

def taken (serial : Nat) (server : String) : Item where
  id := .issued serial
  jobId := job
  recipientId := recipient.id
  variantId := none
  server := server
  status := .known .queued
  remoteId := some "m-1"
  lastError := none
  checkedAt := none
  createdAt := ⟨0, 0⟩
  updatedAt := ⟨0, 0⟩

/-- Three items wait, one of them for a server that is not registered. -/
def queue : Scene where
  tables := { items := [taken 0 "south", taken 1 "north", taken 2 "north"], issued := 3 }

/-- The engine with the smallest batches. -/
def narrow : Engine := { engine with settings := { reconcileBatchSize := 1 } }

/-- Every second. -/
def seconds (k : Nat) : Timestamp := ⟨k, 0⟩

/-- Three passes stamp three items in batches of one. -/
theorem three_items_rotate :
    ∃ starts ends, starts 0 = queue ∧ IsRotation narrow .reliable seconds 3 starts ends ∧
      ∀ i ∈ queue.tables.items, ∃ k < 3, IsStamped (seconds k) i.id (starts k) (ends k) := by
  have hids : (queue.tables.items.map Item.id).Nodup := by decide
  have hissued : ∀ i ∈ queue.tables.items, ∃ n, n < queue.tables.issued ∧ i.id = .issued n := by
    simp only [queue, List.forall_mem_cons]
    exact ⟨⟨0, by decide, rfl⟩, ⟨1, by decide, rfl⟩, ⟨2, by decide, rfl⟩, by simp⟩
  have hw : queue.tables.IsWellFormed := ⟨by decide, by decide, hids, hissued⟩
  have hcount : queue.tables.items.countP Tables.isAwaiting = 3 := by decide
  have hpasses : 3 =
      queue.tables.items.countP Tables.isAwaiting ⌈/⌉ narrow.settings.reconcileBatchSize.toNat := by
    rw [hcount]
    rfl
  have htimes : ∀ k, k + 1 < 3 → (seconds k).lt (seconds (k + 1)) = true := by
    intro k _
    simp [Timestamp.lt, Timestamp.le, seconds]
  have hpast : ∀ i ∈ queue.tables.items, ∀ checked, i.checkedAt = some checked →
      checked.lt (seconds 0) = true := by
    simp [queue, taken]
  obtain ⟨⟨starts, ends, hstart, hrun⟩, hall⟩ :=
    Engine.reconcile_rotates narrow (fun _ => False) id (fun _ => id) (by decide) queue hw 3 hpasses
      seconds htimes hpast
  obtain ⟨hstamped, -⟩ := hall starts ends hstart hrun
  have hawaiting : ∀ i ∈ queue.tables.items, Tables.isAwaiting i = true := by decide
  exact ⟨starts, ends, hstart, hrun, fun i hi => hstamped i hi (hawaiting i hi)⟩

end Rehearsal

end Mailroom
