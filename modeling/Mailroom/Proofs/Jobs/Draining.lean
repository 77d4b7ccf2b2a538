import Mathlib.Algebra.Order.Floor.Div
import Mailroom.Proofs.Jobs.Rounds

/-!
How a running job drains.  Main statement: while an engine ticks by itself and the store does not
fail, each tick dispatches the next batch of a running job's pending items, every item in exactly
one tick, and the tick after the last batch concludes the job by the counts of its items.
-/

namespace Mailroom

open Program (Asks Completes)

variable {e : Engine} {around : Surroundings} {actor : Actor} {effect : Effect}
  {answer : effect.Answer} {scope : Scope} {item job : Uuid} {s m r u v w : Scene}
  {time : Timestamp} {checked report : TickReport} {α : Type}

/-- An item was dispatched from one scene to another. -/
def IsDispatched (item : Uuid) (u v : Scene) : Prop :=
  ∃ events, v.history = events ++ u.history ∧ ∃ event ∈ events, event.dispatches item = true

/-- A pending item stays so unless it is dispatched. -/
theorem dispatches_of_leaves (hu : u.tables.IsWellFormed)
    (hacts : around.acts actor effect answer u v) (hwithin : effect.Within .engine)
    (hbefore : IsIn item .pending u)
    (hafter : ¬ IsIn item .pending v) :
    Event.dispatches item ⟨actor, effect, answer, u.tables, v.tables⟩ = true := by
  rcases Surroundings.acts_tables hacts with htables | ⟨call, now, rfl | rfl, htables⟩
  · rw [IsIn, htables] at hafter
    exact absurd hbefore hafter
  · rw [IsIn, htables] at hafter
    by_contra hnot
    refine hafter (Tables.itemStatus_serve hu call hbefore ?_)
    rintro i rfl hpending
    cases call with
    | checkItems ids =>
        simp only [StoreCall.onItem]
        split <;> exact hpending
    | queueItem id remoteId =>
        have hne : i.id ≠ id := fun hid => hnot (by simp [Event.dispatches, hid])
        simpa [StoreCall.onItem, Tables.isItemIn, hne] using hpending
    | failItem id source error =>
        have hin : Tables.isItemIn id source i = false := by
          rw [Bool.eq_false_iff]
          intro hin
          simp only [Tables.isItemIn, Bool.and_eq_true, beq_iff_eq] at hin
          obtain ⟨rfl, hsource⟩ := hin
          rw [hpending] at hsource
          cases hsource
          exact hnot (by simp [Event.dispatches])
        simpa [StoreCall.onItem, hin] using hpending
    | confirmItem id => simp [StoreCall.onItem, Tables.isItemIn, hpending]
    | resetFailed id => simp [StoreCall.onItem, Tables.isFailure, hpending]
    | _ => exact hpending
  · exact absurd hwithin id

/-- What a program does goes into the history, and all of it is of a kind. -/
theorem Program.Completes.events {kind : Effect → Prop} {p : Program α} {a : α} (hp : p.Asks kind)
    (h : p.Completes (around.acts actor) w a v) :
    ∃ events, v.history = events ++ w.history ∧ ∀ event ∈ events, kind event.effect := by
  induction h with
  | ends hends => exact ⟨[], rfl, by simp⟩
  | @turn p q a w v u effect answer hturn hacts _ ih =>
      obtain ⟨hkind, hleft⟩ := hp.turn hturn
      obtain ⟨events, hhistory, hkinds⟩ := ih hleft
      refine ⟨events ++ [⟨actor, effect, answer, w.tables, v.tables⟩], ?_, ?_⟩
      · rw [hhistory, Surroundings.acts_history hacts, List.append_assoc, List.singleton_append]
      · simpa [or_imp, forall_and] using ⟨hkinds, hkind⟩

/-- A pending item that is no longer so after a program of the engine was dispatched. -/
theorem isDispatched_of_leaves {p : Program α} {a : α} (hp : p.Asks (Effect.Within .engine))
    (hw : w.tables.IsWellFormed) (h : p.Completes (around.acts actor) w a v)
    (hbefore : IsIn item .pending w) (hafter : ¬ IsIn item .pending v) : IsDispatched item w v := by
  induction h with
  | ends hends => exact absurd hbefore hafter
  | @turn p q a w v u effect answer hturn hacts hrest ih =>
      obtain ⟨hwithin, hleft⟩ := hp.turn hturn
      have hhistory := Surroundings.acts_history hacts
      by_cases hstill : IsIn item .pending v
      · obtain ⟨events, hevents, event, hmem, hdispatches⟩ :=
          ih hleft (Surroundings.acts_isWellFormed hw hacts) hstill hafter
        refine ⟨events ++ [⟨actor, effect, answer, w.tables, v.tables⟩], ?_, event,
          List.mem_append_left _ hmem, hdispatches⟩
        rw [hevents, hhistory, List.append_assoc, List.singleton_append]
      · obtain ⟨events, hevents, -⟩ := hrest.events hleft
        refine ⟨events ++ [⟨actor, effect, answer, w.tables, v.tables⟩], ?_, _,
          List.mem_append_right _ List.mem_cons_self,
          dispatches_of_leaves hw hacts hwithin hbefore hstill⟩
        rw [hevents, hhistory, List.append_assoc, List.singleton_append]

/-- Queued items may be stamped and moved, and jobs may be counted and moved. -/
def Scope.reviewing : Scope where
  items _ source := source = .queued
  mail _ := False
  stamps _ := True
  renews _ := False
  moves _ _ _ := True
  counts _ := True
  creates _ := False

theorem not_dispatches_of_reviewing {event : Event} (h : event.effect.Within .reviewing) :
    event.dispatches item = false :=
  not_dispatches_of_within h id (by rintro ⟨⟩) event.before event.after

/-- A tick dispatches none but the items that it drew. -/
theorem mem_drawn_of_isDispatched {promoted passed : Except String TickReport}
    (hpromote : Engine.promote.run.Completes (around.acts .engine) s promoted m)
    (hcheck : e.reconcile.run.Completes (around.acts .engine) m passed r)
    (hdrives : Confined (· ∈ (e.drawn r.tables).map Item.id) (fun _ => True) r v)
    (h : IsDispatched item s v) : item ∈ (e.drawn r.tables).map Item.id := by
  have hpromotes : Asks (Effect.Within .reviewing) Engine.promote.run :=
    Engine.asks_promote fun _ => trivial
  have hchecks : Asks (Effect.Within .reviewing) e.reconcile.run :=
    Engine.asks_reconcile e (fun _ => rfl) (fun _ => trivial) (fun _ => trivial)
      fun _ _ _ _ _ => trivial
  obtain ⟨first, hm, hfirst⟩ := hpromote.events hpromotes
  obtain ⟨second, hr, hsecond⟩ := hcheck.events hchecks
  obtain ⟨third, hv, hthird⟩ := hdrives.events
  obtain ⟨events, hevents, event, hevent, hdispatches⟩ := h
  obtain rfl : events = third ++ (second ++ first) := by
    rw [hv, hr, hm, ← List.append_assoc, ← List.append_assoc, List.append_left_inj] at hevents
    rw [← hevents, List.append_assoc]
  rcases List.mem_append.1 hevent with hevent | hevent
  · exact hthird event hevent item hdispatches
  · rcases List.mem_append.1 hevent with hevent | hevent
    · rw [not_dispatches_of_reviewing (hsecond event hevent)] at hdispatches
      cases hdispatches
    · rw [not_dispatches_of_reviewing (hfirst event hevent)] at hdispatches
      cases hdispatches

theorem filter_not_mem_take {β : Type} [DecidableEq β] {xs : List β} (hnodup : xs.Nodup) (n : Nat) :
    xs.filter (fun x => decide (x ∉ xs.take n)) = xs.drop n := by
  have hsplit : (xs.take n ++ xs.drop n).filter (fun x => decide (x ∉ xs.take n)) = xs.drop n := by
    rw [List.filter_append, List.filter_eq_nil_iff.2 (by simp), List.nil_append,
      List.filter_eq_self]
    intro x hx
    simpa using fun hmem => List.disjoint_take_drop hnodup (Nat.le_refl n) hmem hx
  rwa [List.take_append_drop] at hsplit

/-- The outcome of a job of which nothing is pending. -/
theorem Tables.outcome_of_settled {t : Tables} (h : t.countOf job .pending = 0) :
    (t.statsOf job).outcome = some
      (if 0 < t.countOf job .failed ∧ t.countOf job .queued = 0 ∧ t.countOf job .sent = 0 then
        .failed else .completed) := by
  have hnone : ¬ ((0 : Nat) : Int) > 0 := by simp
  have hiff : ((t.countOf job .failed : Int) > 0 ∧
      (t.countOf job .sent : Int) + (t.countOf job .queued : Int) = 0) ↔
      0 < t.countOf job .failed ∧ t.countOf job .queued = 0 ∧ t.countOf job .sent = 0 := by
    omega
  rw [statsOf_eq, JobStats.outcome, h, if_neg hnone]
  by_cases hfailed : 0 < t.countOf job .failed ∧ t.countOf job .queued = 0 ∧ t.countOf job .sent = 0
  · rw [if_pos (hiff.2 hfailed), if_pos hfailed]
  · rw [if_neg (mt hiff.1 hfailed), if_neg hfailed]

namespace IsTick

theorem not_pending_of_drawn (h : IsTick e Surroundings.reliable.going s m r v time checked report)
    (hmem : item ∈ (e.drawn r.tables).map Item.id) : ¬ IsIn item .pending v := by
  obtain ⟨i, hi, rfl⟩ := List.mem_map.1 hmem
  obtain ⟨j, hj, hi⟩ := List.mem_flatMap.1 hi
  have hfate := (h.drives.drives j hj).fates i hi
  intro hpending
  rw [IsIn] at hpending
  cases houtcome : v.outcomeOf i.id with
  | queued | failed =>
      rw [houtcome, IsFate, hpending] at hfate
      cases hfate
  | unrecorded =>
      rw [houtcome] at hfate
      obtain ⟨-, -, remoteId, failure, hfails⟩ := hfate
      exact hfails

/-- An item of a job is drawn if the job runs and the item is one of the first that wait. -/
theorem mem_drawn_iff (h : IsTick e around s m r v time checked report) {i : Item}
    (hi : i ∈ s.tables.waiting job) :
    i.id ∈ (e.drawn r.tables).map Item.id ↔
      r.tables.statusOf job = some (.known .running) ∧
        i ∈ (s.tables.waiting job).take e.settings.batchSize.toNat := by
  constructor
  · intro hmem
    obtain ⟨k, hk, hid⟩ := List.mem_map.1 hmem
    obtain ⟨j, hj, hk⟩ := List.mem_flatMap.1 hk
    rw [h.pendingItems] at hk
    obtain ⟨hrow, hwaits⟩ := List.mem_filter.1 (List.mem_of_mem_take hk)
    obtain ⟨hirow, hiwaits⟩ := List.mem_filter.1 hi
    obtain rfl := List.inj_on_of_nodup_map h.wellFormed.items_nodup hrow hirow hid
    simp only [Bool.and_eq_true, beq_iff_eq] at hwaits hiwaits
    obtain rfl : j.id = job := hwaits.1.symm.trans hiwaits.1
    exact ⟨(Tables.mem_running h.checked_wellFormed).1 (List.mem_map_of_mem hj), hk⟩
  · rintro ⟨hrunning, hfirst⟩
    obtain ⟨j, hj, rfl⟩ := List.mem_map.1 ((Tables.mem_running h.checked_wellFormed).2 hrunning)
    refine List.mem_map_of_mem (List.mem_flatMap.2 ⟨j, hj, ?_⟩)
    rwa [h.pendingItems]

/-- Of what waits, the items that were drawn are gone after the tick. -/
theorem waiting_eq_filter (h : IsTick e Surroundings.reliable.going s m r v time checked report)
    (job : Uuid) :
    v.tables.waiting job =
      (s.tables.waiting job).filter fun i => decide (i.id ∉ (e.drawn r.tables).map Item.id) := by
  obtain ⟨f, hf, hitem⟩ := h.drives.confined.items
  have hgone : ∀ i ∈ r.tables.items, i.id ∈ (e.drawn r.tables).map Item.id →
      (f i).status ≠ .known .pending := by
    intro i hi hid hpending
    refine h.not_pending_of_drawn hid ?_
    rw [IsIn, ← (hitem i).1,
      Tables.itemStatus_of_mem h.ended_wellFormed (hf ▸ List.mem_map_of_mem hi), hpending]
  have htest : ∀ i ∈ r.tables.items,
      ((f i).jobId == job && (f i).status == .known .pending) =
        (decide (i.id ∉ (e.drawn r.tables).map Item.id) &&
          (i.jobId == job && i.status == .known .pending)) := by
    intro i hi
    by_cases hid : i.id ∈ (e.drawn r.tables).map Item.id
    · rw [beq_eq_false_iff_ne.2 (hgone i hi hid), decide_eq_false (not_not_intro hid),
        Bool.and_false, Bool.false_and]
    · rw [(hitem i).2.2 hid, decide_eq_true hid, Bool.true_and]
  rw [← h.waiting, Tables.waiting, Tables.waiting, List.filter_filter, hf, List.filter_map]
  have hfilter := List.filter_congr htest
  rw [Function.comp_def, hfilter]
  conv_rhs => rw [← List.map_id (r.tables.items.filter _)]
  apply List.map_congr_left
  intro i hi
  obtain ⟨-, hwaits⟩ := List.mem_filter.1 hi
  simp only [Bool.and_eq_true, decide_eq_true_eq] at hwaits
  exact (hitem i).2.2 hwaits.1

/-- A job that runs when it is driven loses the first batch of what waits. -/
theorem waiting_of_running (h : IsTick e Surroundings.reliable.going s m r v time checked report)
    (hrunning : r.tables.statusOf job = some (.known .running)) :
    v.tables.waiting job = (s.tables.waiting job).drop e.settings.batchSize.toNat := by
  have hnodup : (s.tables.waiting job).Nodup :=
    (h.wellFormed.items_nodup.of_map Item.id).filter _
  rw [h.waiting_eq_filter, ← filter_not_mem_take hnodup]
  apply List.filter_congr
  intro i hi
  rw [decide_eq_decide, h.mem_drawn_iff hi]
  simp [hrunning]

/-- What waits of a job that does not run is left as it is. -/
theorem waiting_of_not_running
    (h : IsTick e Surroundings.reliable.going s m r v time checked report)
    (hrunning : r.tables.statusOf job ≠ some (.known .running)) :
    v.tables.waiting job = s.tables.waiting job := by
  rw [h.waiting_eq_filter, List.filter_eq_self]
  intro i hi
  rw [decide_eq_true_eq, h.mem_drawn_iff hi]
  exact fun hdrawn => hrunning hdrawn.1

/-- A job that runs before a tick does so until it is driven. -/
theorem still_running (h : IsTick e around s m r v time checked report)
    (hrunning : s.tables.statusOf job = some (.known .running)) :
    r.tables.statusOf job = some (.known .running) := by
  rw [h.running_iff]
  by_contra hne
  have hmoved : m.tables.statusOf job ≠ s.tables.statusOf job := by rwa [hrunning]
  exact hne (h.scheduled_of_promoted hmoved).2

/-- A running job of which something waits goes on running. -/
theorem running_of_waiting (h : IsTick e around s m r v time checked report)
    (hrunning : s.tables.statusOf job = some (.known .running))
    (hwaiting : s.tables.waiting job ≠ []) (hbatch : 1 ≤ e.settings.batchSize) :
    v.tables.statusOf job = some (.known .running) := by
  obtain ⟨j, hj, rfl⟩ :=
    List.mem_map.1 ((Tables.mem_running h.checked_wellFormed).2 (h.still_running hrunning))
  have hnext : r.tables.pendingItems j.id e.settings.batchSize ≠ [] := by
    rw [h.pendingItems, ne_eq, List.take_eq_nil_iff, not_or]
    exact ⟨by omega, hwaiting⟩
  have hnone : e.conclusion r.tables j.id = none := by
    simp [Engine.conclusion, hnext]
  rw [(h.drives.drives j hj).status, hnone]
  rfl

/-- A running job of which nothing waits is concluded by the counts that it has after the tick. -/
theorem concluded (h : IsTick e around s m r v time checked report)
    (hrunning : s.tables.statusOf job = some (.known .running))
    (hwaiting : s.tables.waiting job = []) :
    v.tables.statusOf job = some (.known
      (if 0 < v.tables.countOf job .failed ∧ v.tables.countOf job .queued = 0 ∧
        v.tables.countOf job .sent = 0 then .failed else .completed)) := by
  obtain ⟨j, hj, rfl⟩ :=
    List.mem_map.1 ((Tables.mem_running h.checked_wellFormed).2 (h.still_running hrunning))
  have hempty : r.tables.pendingItems j.id e.settings.batchSize = [] := by
    rw [h.pendingItems, hwaiting, List.take_nil]
  have hitems : v.tables.itemsOf j.id = r.tables.itemsOf j.id := by
    apply h.drives.confined.itemsOf
    intro i hi hjob hmem
    obtain ⟨k, hk, hid⟩ := List.mem_map.1 hmem
    obtain ⟨l, hl, hk⟩ := List.mem_flatMap.1 hk
    obtain ⟨hrow, howner, -⟩ := Tables.mem_pendingItems hk
    obtain rfl := List.inj_on_of_nodup_map h.checked_wellFormed.items_nodup hrow hi hid
    rw [← howner, hjob, hempty] at hk
    cases hk
  have hnothing : r.tables.countOf j.id .pending = 0 := by
    rw [Tables.countOf_pending, h.waiting, hwaiting, List.length_nil]
  have hconclusion : e.conclusion r.tables j.id = (r.tables.statsOf j.id).outcome := by
    simp [Engine.conclusion, hempty]
  have hcounts : ∀ status, v.tables.countOf j.id status = r.tables.countOf j.id status :=
    fun status => by rw [Tables.countOf, hitems, Tables.countOf]
  rw [(h.drives.drives j hj).status, hconclusion, Tables.outcome_of_settled hnothing, hcounts,
    hcounts, hcounts]
  rfl

/-- Rows keep their identifiers and their jobs. -/
theorem row_before (h : IsTick e around s m r v time checked report) {i : Item}
    (hi : i ∈ v.tables.items) : ∃ k ∈ s.tables.items, k.id = i.id ∧ k.jobId = i.jobId := by
  obtain ⟨f, hf, hfile⟩ := h.drives.confined.items
  obtain ⟨g, hg, hfile'⟩ := h.checks.confined.items
  rw [hf, hg, h.promotes.confined.items_eq] at hi
  obtain ⟨x, hx, rfl⟩ := List.mem_map.1 hi
  obtain ⟨k, hk, rfl⟩ := List.mem_map.1 hx
  exact ⟨k, hk, ((hfile (g k)).1.trans (hfile' k).1).symm,
    ((hfile (g k)).2.1.trans (hfile' k).2.1).symm⟩

end IsTick

/-- An engine ticks by itself and is not to stop, and the store does not fail. -/
def IsTicking (e : Engine) (s : Nat → Scene) : Prop :=
  ∀ k, ∃ report,
    e.tick.Completes (Surroundings.reliable.going.acts .engine) (s k) report (s (k + 1))

/-- From a scene to another one a job went through some of the items that wait. -/
structure HasDrained (e : Engine) (job : Uuid) (w : Scene) (ticks : Nat) (s : Scene) : Prop where
  wellFormed : s.tables.IsWellFormed
  waiting : s.tables.waiting job =
    (w.tables.waiting job).drop (ticks * e.settings.batchSize.toNat)
  rows : ∀ i ∈ s.tables.items, ∃ k ∈ w.tables.items, k.id = i.id ∧ k.jobId = i.jobId
  running : ticks ≤ w.tables.countOf job .pending ⌈/⌉ e.settings.batchSize.toNat →
    s.tables.statusOf job = some (.known .running)

/-- The places of a batch. -/
theorem mem_take_drop_iff {β : Type} {xs : List β} {x : β} {place skipped size : Nat}
    (hnodup : xs.Nodup) (hx : xs[place]? = some x) :
    x ∈ (xs.drop skipped).take size ↔ skipped ≤ place ∧ place < skipped + size := by
  constructor
  · intro hmem
    obtain ⟨n, hn⟩ := List.mem_iff_getElem?.1 hmem
    rw [List.getElem?_take, List.getElem?_drop] at hn
    split at hn
    · have hplace : place = skipped + n :=
        (List.getElem?_inj (List.getElem?_eq_some_iff.1 hx).1 hnodup).1 (hx.trans hn.symm)
      omega
    · cases hn
  · rintro ⟨hle, hlt⟩
    refine List.mem_iff_getElem?.2 ⟨place - skipped, ?_⟩
    rw [List.getElem?_take, List.getElem?_drop, if_pos (by omega), Nat.add_sub_cancel' hle, hx]

namespace HasDrained

variable {ticks : Nat}

theorem start (e : Engine) (hw : w.tables.IsWellFormed)
    (hrunning : w.tables.statusOf job = some (.known .running)) : HasDrained e job w 0 w where
  wellFormed := hw
  waiting := by simp
  rows i hi := ⟨i, hi, rfl, rfl⟩
  running _ := hrunning

theorem waiting_ne_nil (h : HasDrained e job w ticks s)
    (hticks : ticks * e.settings.batchSize.toNat < w.tables.countOf job .pending) :
    s.tables.waiting job ≠ [] := by
  rw [Tables.countOf_pending] at hticks
  rw [h.waiting, ne_eq, List.drop_eq_nil_iff]
  omega

theorem waiting_eq_nil (h : HasDrained e job w ticks s)
    (hticks : w.tables.countOf job .pending ≤ ticks * e.settings.batchSize.toNat) :
    s.tables.waiting job = [] := by
  rw [Tables.countOf_pending] at hticks
  rw [h.waiting, List.drop_eq_nil_iff]
  exact hticks

theorem lt_ceilDiv_iff (hbatch : 1 ≤ e.settings.batchSize) (n : Nat) :
    ticks < n ⌈/⌉ e.settings.batchSize.toNat ↔ ticks * e.settings.batchSize.toNat < n := by
  have hpositive : 0 < e.settings.batchSize.toNat := by omega
  rw [← not_le, ceilDiv_le_iff_le_smul hpositive, not_le, smul_eq_mul, Nat.mul_comm]

/-- One more tick goes through the next batch. -/
theorem tick (h : HasDrained e job w ticks s) (hbatch : 1 ≤ e.settings.batchSize)
    (htick : IsTick e Surroundings.reliable.going s m r v time checked report) :
    HasDrained e job w (ticks + 1) v := by
  refine ⟨htick.ended_wellFormed, ?_, fun i hi => ?_, fun hticks => ?_⟩
  · by_cases hrunning : s.tables.statusOf job = some (.known .running)
    · rw [htick.waiting_of_running (htick.still_running hrunning), h.waiting, List.drop_drop,
        Nat.succ_mul]
    · -- a job that has finished has nothing left that waits
      have hlast : w.tables.countOf job .pending ≤ ticks * e.settings.batchSize.toNat := by
        rw [← not_lt, ← lt_ceilDiv_iff hbatch]
        exact fun hlt => hrunning (h.running hlt.le)
      have hnothing := h.waiting_eq_nil hlast
      have hdropped :
          (w.tables.waiting job).drop ((ticks + 1) * e.settings.batchSize.toNat) = [] := by
        rw [Tables.countOf_pending] at hlast
        rw [List.drop_eq_nil_iff, Nat.succ_mul]
        omega
      rw [hdropped]
      by_cases hdriven : r.tables.statusOf job = some (.known .running)
      · rw [htick.waiting_of_running hdriven, hnothing, List.drop_nil]
      · rw [htick.waiting_of_not_running hdriven, hnothing]
  · obtain ⟨x, hx, hid, hjob⟩ := htick.row_before hi
    obtain ⟨k, hk, hid', hjob'⟩ := h.rows x hx
    exact ⟨k, hk, hid'.trans hid, hjob'.trans hjob⟩
  · have hlt : ticks < w.tables.countOf job .pending ⌈/⌉ e.settings.batchSize.toNat := hticks
    exact htick.running_of_waiting (h.running hlt.le)
      (h.waiting_ne_nil ((lt_ceilDiv_iff hbatch _).1 hlt)) hbatch

/-- The next tick draws an item of the job if it stands in the next batch. -/
theorem mem_drawn_iff (h : HasDrained e job w ticks s) (hw : w.tables.IsWellFormed)
    (hbatch : 1 ≤ e.settings.batchSize) (htick : IsTick e around s m r v time checked report)
    {place : Nat} {i : Item} (hi : (w.tables.waiting job)[place]? = some i) :
    i.id ∈ (e.drawn r.tables).map Item.id ↔ ticks = place / e.settings.batchSize.toNat := by
  have hnodup : (w.tables.waiting job).Nodup := (hw.items_nodup.of_map Item.id).filter _
  obtain ⟨hplace, hget⟩ := List.getElem?_eq_some_iff.1 hi
  have hmem : i ∈ w.tables.waiting job := hget ▸ List.getElem_mem hplace
  have hpositive : 0 < e.settings.batchSize.toNat := by omega
  have hwindow : i ∈ (s.tables.waiting job).take e.settings.batchSize.toNat ↔
      ticks = place / e.settings.batchSize.toNat := by
    rw [h.waiting, mem_take_drop_iff hnodup hi, eq_comm, Nat.div_eq_iff hpositive]
    omega
  rw [← hwindow]
  obtain ⟨hrow, howner⟩ := List.mem_filter.1 hmem
  simp only [Bool.and_eq_true, beq_iff_eq] at howner
  constructor
  · intro hdrawn
    obtain ⟨x, hx, hid⟩ := List.mem_map.1 hdrawn
    obtain ⟨hxrow, hxpending⟩ := htick.mem_drawn hx
    -- the row that was drawn is the item's, since it is of the same job
    obtain ⟨k, hk, hkid, hkjob⟩ := h.rows x hxrow
    obtain rfl := List.inj_on_of_nodup_map hw.items_nodup hk hrow (hkid.trans hid)
    have hxwaits : x ∈ s.tables.waiting job :=
      List.mem_filter.2 ⟨hxrow, by simp [← hkjob, howner.1, hxpending]⟩
    have hxbefore : x ∈ w.tables.items := by
      rw [h.waiting] at hxwaits
      exact List.mem_of_mem_filter (List.mem_of_mem_drop hxwaits)
    obtain rfl := List.inj_on_of_nodup_map hw.items_nodup hxbefore hrow hid
    exact ((htick.mem_drawn_iff hxwaits).1 hdrawn).2
  · intro hfirst
    refine (htick.mem_drawn_iff (List.mem_of_mem_take hfirst)).2 ⟨htick.still_running ?_, hfirst⟩
    apply h.running
    have hlt : ticks * e.settings.batchSize.toNat < w.tables.countOf job .pending := by
      rw [h.waiting, mem_take_drop_iff hnodup hi] at hfirst
      rw [Tables.countOf_pending]
      omega
    exact ((lt_ceilDiv_iff hbatch _).2 hlt).le

end HasDrained

theorem Surroundings.reliable_isMild : reliable.IsMild := by
  intro effect answer hanswer
  cases effect with
  | store call =>
      cases answer with
      | ok reply => trivial
      | error failure => exact absurd hanswer id
  | _ => trivial

/-- An engine may tick on and on. -/
theorem exists_isTicking (e : Engine) (w : Scene) : ∃ run, run 0 = w ∧ IsTicking e run := by
  have hnext : ∀ s, ∃ s' report,
      e.tick.Completes (Surroundings.reliable.going.acts .engine) s report s' := fun s =>
    ⟨_, _, Circumstances.completes (Circumstances.going (Rehearsal.reliable_fair "waiting")) .engine
      e.tick s⟩
  choose next hnext using hnext
  refine ⟨fun k => next^[k] w, rfl, fun k => ?_⟩
  simp only [Function.iterate_succ_apply']
  exact hnext _

theorem IsTicking.isTick {run : Nat → Scene} (hrun : IsTicking e run) (k : Nat)
    (hk : (run k).tables.IsWellFormed) :
    ∃ m r time checked report,
      IsTick e Surroundings.reliable.going (run k) m r (run (k + 1)) time checked report ∧
        ∀ item, IsDispatched item (run k) (run (k + 1)) ↔
          item ∈ (e.drawn r.tables).map Item.id := by
  obtain ⟨report, htick⟩ := hrun k
  obtain ⟨m, r, time, checked, h, ⟨_, hpromote⟩, ⟨_, hcheck⟩, -⟩ :=
    isTick_of_completes Surroundings.reliable_isMild hk htick
  refine ⟨m, r, time, checked, report, h, fun item => ⟨fun hdispatched => ?_, fun hdrawn => ?_⟩⟩
  · exact mem_drawn_of_isDispatched hpromote hcheck
      (h.drives.confined.mono (fun _ => id) fun _ _ => trivial) hdispatched
  · obtain ⟨i, hi, rfl⟩ := List.mem_map.1 hdrawn
    obtain ⟨hrow, hpending⟩ := h.mem_drawn hi
    refine isDispatched_of_leaves e.asks_tick hk htick ?_ (h.not_pending_of_drawn hdrawn)
    rw [IsIn, Tables.itemStatus_of_mem hk hrow, hpending]

theorem IsTicking.hasDrained {run : Nat → Scene} (hrun : IsTicking e run)
    (hw : (run 0).tables.IsWellFormed)
    (hrunning : (run 0).tables.statusOf job = some (.known .running))
    (hbatch : 1 ≤ e.settings.batchSize) (k : Nat) : HasDrained e job (run 0) k (run k) := by
  induction k with
  | zero => exact .start e hw hrunning
  | succ k ih =>
      obtain ⟨m, r, time, checked, report, htick, -⟩ := hrun.isTick k ih.wellFormed
      exact ih.tick hbatch htick

/-- A running job drains batch by batch.  From any tables, and whatever the engine keeps in mind, an
engine may tick on and on by itself; and however it does, as long as the store does not fail: after
so many ticks, up to those that its pending items need, the job runs still, and exactly that many
batches of the items do not wait any longer.  The item at each place is dispatched in one tick, that
of its batch.  The tick after the last batch concludes the job, as failed if then some item has
failed and none is queued or sent. -/
theorem Engine.job_drains (e : Engine) (job : Uuid) (w : Scene) (hw : w.tables.IsWellFormed)
    (hrunning : w.tables.statusOf job = some (.known .running))
    (hbatch : 1 ≤ e.settings.batchSize) :
    (∃ run, run 0 = w ∧ IsTicking e run) ∧
    ∀ run, run 0 = w → IsTicking e run →
      (∀ k ≤ w.tables.countOf job .pending ⌈/⌉ e.settings.batchSize.toNat,
        (run k).tables.statusOf job = some (.known .running) ∧
          (run k).tables.waiting job =
            (w.tables.waiting job).drop (k * e.settings.batchSize.toNat)) ∧
      (∀ place i, (w.tables.waiting job)[place]? = some i → ∀ k,
        IsDispatched i.id (run k) (run (k + 1)) ↔ k = place / e.settings.batchSize.toNat) ∧
      ∀ v, v = run (w.tables.countOf job .pending ⌈/⌉ e.settings.batchSize.toNat + 1) →
        v.tables.statusOf job = some (.known
          (if 0 < v.tables.countOf job .failed ∧ v.tables.countOf job .queued = 0 ∧
            v.tables.countOf job .sent = 0 then .failed else .completed)) := by
  constructor
  · exact exists_isTicking e w
  · rintro run rfl hrun
    have hdrained := hrun.hasDrained hw hrunning hbatch
    refine ⟨fun k hk => ⟨(hdrained k).running hk, (hdrained k).waiting⟩, ?_, ?_⟩
    · intro place i hi k
      obtain ⟨m, r, time, checked, report, htick, hdispatched⟩ :=
        hrun.isTick k (hdrained k).wellFormed
      rw [hdispatched]
      exact (hdrained k).mem_drawn_iff hw hbatch htick hi
    · rintro v rfl
      obtain ⟨m, r, time, checked, report, htick, -⟩ := hrun.isTick _ (hdrained _).wellFormed
      refine htick.concluded ((hdrained _).running le_rfl) ((hdrained _).waiting_eq_nil ?_)
      rw [← not_lt, ← HasDrained.lt_ceilDiv_iff hbatch]
      exact lt_irrefl _

/-- A job of one item runs until the item was dispatched, and is concluded by the second tick. -/
theorem Engine.one_item_drains :
    ∃ run, run 0 = Rehearsal.created ∧ IsTicking Rehearsal.engine run ∧
      Rehearsal.created.tables.countOf Rehearsal.job .pending = 1 ∧
      (run 1).tables.statusOf Rehearsal.job = some (.known .running) ∧
      IsDispatched Rehearsal.item (run 0) (run 1) ∧
      (run 2).tables.HasOutcome Rehearsal.job := by
  have hw : Rehearsal.created.tables.IsWellFormed := by
    obtain ⟨o, ho, -, hscene⟩ := Rehearsal.reachable []
    have ho := ho.isWellFormed Rehearsal.isWellFormed
    rwa [hscene] at ho
  have hrunning : Rehearsal.created.tables.statusOf Rehearsal.job = some (.known .running) := by
    decide +kernel
  have hbatch : 1 ≤ Rehearsal.engine.settings.batchSize := by decide
  obtain ⟨⟨run, hstart, hrun⟩, hall⟩ :=
    Engine.job_drains Rehearsal.engine Rehearsal.job Rehearsal.created hw hrunning hbatch
  have hcount : Rehearsal.created.tables.countOf Rehearsal.job .pending = 1 := by
    decide +kernel
  have hticks : Rehearsal.created.tables.countOf Rehearsal.job .pending ⌈/⌉
      Rehearsal.engine.settings.batchSize.toNat = 1 := by
    rw [hcount]
    rfl
  obtain ⟨hbatches, hdispatched, hlast⟩ := hall run hstart hrun
  rw [hticks] at hbatches hlast
  have hitem : ((Rehearsal.created.tables.waiting Rehearsal.job)[0]?).map Item.id =
      some Rehearsal.item := by
    decide +kernel
  obtain ⟨i, hi, hid⟩ := Option.map_eq_some_iff.1 hitem
  refine ⟨run, hstart, hrun, hcount, (hbatches 1 le_rfl).1, ?_, ?_⟩
  · rw [← hid]
    exact (hdispatched 0 i hi 0).2 (by simp)
  · refine ⟨_, ?_, hlast _ rfl⟩
    split
    · exact .inr rfl
    · exact .inl rfl

end Mailroom
