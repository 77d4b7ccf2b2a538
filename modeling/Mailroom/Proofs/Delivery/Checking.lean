import Mailroom.Proofs.Delivery.Batches

/-!
Checks of queued items.  Main statements: an item that is checked is sent or failed if it moved, and
queued still otherwise; a job is given another outcome only if it had one; and a pass leaves all but
its batch of items and the outcomes of jobs as they were, and its report counts what it changed.
-/

namespace Mailroom

open Program (Asks Meets)

variable {e : Engine} {around : Surroundings} {items : List Item} {ids : List Uuid}
  {item job : Uuid} {moved changed : Bool} {t : Tables} {u v w : Scene}

/-- A queued item was checked: it is sent or failed if it moved. -/
def IsChecked (item : Uuid) : Bool → Scene → Prop
  | true, s => IsIn item .sent s ∨ IsIn item .failed s
  | false, s => IsIn item .queued s

theorem IsChecked.stable (moved : Bool) : Stable (Aside item) (IsChecked item moved) := by
  cases moved with
  | false => exact IsIn.stable .queued
  | true =>
      rintro u v (hu | hu) hstep
      · exact .inl (IsIn.stable .sent hu hstep)
      · exact .inr (IsIn.stable .failed hu hstep)

theorem IsChecked.moved_iff {s : Scene} (h : IsChecked item moved s) :
    moved = true ↔ s.tables.itemStatus item ≠ some (.known .queued) := by
  cases moved with
  | false =>
      rw [IsChecked, IsIn] at h
      simp [h]
  | true => rcases h with h | h <;> rw [IsIn] at h <;> simp [h]

/-- A write to a queued item that makes it another status. -/
theorem isIn_of_moves {call : StoreCall} {answer : call.Answer} {status : ItemStatus}
    (hu : IsIn item .queued u) (hacts : tellingTurns around (.store call) answer u v)
    (hmild : around.IsMild) (hcall : ∀ id remoteId, call ≠ .queueItem id remoteId)
    (hrow : ∀ now i, i.id = item → i.status = .known .queued →
      (call.onItem now i).status = .known status) :
    IsIn item status v := by
  obtain ⟨now, -, htables⟩ := served hmild hacts hcall
  rw [IsIn, htables]
  exact Tables.itemStatus_serve hacts.1 call hu (hrow now)

/-- What a server says about a queued item is recorded. -/
theorem fares_recordStatus (hmild : around.IsMild) {i : Item} (r : RemoteStatus)
    (hw : IsIn i.id .queued w) :
    Fares around i.id (Engine.recordStatus i r) (IsChecked i.id) w := by
  unfold Engine.recordStatus
  split
  · apply Meets.request (IsIn.stable .queued) hw
    intro answer u v hu hacts
    obtain ⟨now, rfl, -⟩ := served hmild hacts (by simp)
    have hfound : (u.tables.serve now (.confirmItem i.id)).1 = true := Tables.moveItem_fst hu _
    refine ⟨trivial, Meets.pure (IsChecked.stable _) ?_⟩
    rw [hfound]
    exact .inl (isIn_of_moves hu hacts hmild (by simp) fun now k hid hstatus => by
      simp [StoreCall.onItem, Tables.isItemIn, hid, hstatus])
  · apply Meets.request (IsIn.stable .queued) hw
    intro answer u v hu hacts
    obtain ⟨now, rfl, -⟩ := served hmild hacts (by simp)
    have hfound : (u.tables.serve now (.failItem i.id .queued (Engine.refusal r))).1 = true :=
      Tables.moveItem_fst hu _
    refine ⟨trivial, Meets.pure (IsChecked.stable _) ?_⟩
    rw [hfound]
    exact .inr (isIn_of_moves hu hacts hmild (by simp) fun now k hid hstatus => by
      simp [StoreCall.onItem, Tables.isItemIn, hid, hstatus])
  · exact Meets.pure (IsChecked.stable _) hw

theorem fares_reconcileItem (hmild : around.IsMild) {i : Item} (hw : IsIn i.id .queued w) :
    Fares around i.id (e.reconcileItem i) (IsChecked i.id) w := by
  unfold Engine.reconcileItem
  split
  · exact Meets.pure (IsChecked.stable _) hw
  · split
    · apply Meets.request (IsIn.stable .queued) hw
      intro answer u v hu hacts
      have hv : IsIn i.id .queued v := by
        rw [IsIn, hacts.2.2.2.1.1]
        exact hu
      refine ⟨trivial, ?_⟩
      cases answer with
      | ok r => exact fares_recordStatus hmild r hv
      | error error => exact Meets.pure (IsChecked.stable _) hv
    · exact Meets.pure (IsChecked.stable _) hw

def Tables.HasOutcome (t : Tables) (job : Uuid) : Prop :=
  ∃ outcome : JobStatus, outcome.IsOutcome ∧ t.statusOf job = some (.known outcome)

theorem Tables.HasOutcome.not_running (h : t.HasOutcome job) :
    t.statusOf job ≠ some (.known .running) := by
  rintro hrunning
  obtain ⟨outcome, houtcome, hstatus⟩ := h
  rw [hstatus] at hrunning
  cases hrunning
  rcases houtcome with h | h <;> cases h

structure IsReevaluated (job : Uuid) (changed : Bool) (w v : Scene) : Prop where
  changed_iff : changed = true ↔ v.tables.statusOf job ≠ w.tables.statusOf job
  outcome : v.tables.statusOf job ≠ w.tables.statusOf job →
    w.tables.HasOutcome job ∧ v.tables.HasOutcome job
  confined : Confined (fun _ => False) (· = job) w v

theorem IsReevaluated.of_unchanged (h : Confined (fun _ => False) (fun _ => False) w v) :
    IsReevaluated job false w v := by
  have hsame : v.tables.statusOf job = w.tables.statusOf job := h.statusOf id
  exact ⟨by simp [hsame], fun hne => absurd hsame hne,
    h.mono (fun _ => id) fun _ => False.elim⟩

theorem Engine.ne_of_revisedOutcome? {j : Job} {stats : JobStats} {current outcome : JobStatus}
    (h : revisedOutcome? j stats = some (current, outcome)) : outcome ≠ current := by
  obtain ⟨hstatus, houtcome, -⟩ := of_revisedOutcome?_eq_some h
  simp only [revisedOutcome?, hstatus, Stored.value?, houtcome, Option.bind_eq_bind,
    Option.bind_some, Option.ite_none_right_eq_some] at h
  exact h.1.2

/-- A job is given another outcome if its counts ask for it and it has one. -/
theorem reevaluates_reevaluate (hmild : around.IsMild) (job : Uuid) :
    (Engine.reevaluate job).run.Meets (tellingTurns around) (fun _ _ => False) (fun _ _ => True)
      (fun result v => ∃ changed, result = .ok changed ∧ IsReevaluated job changed w v) w := by
  refine meets_served hmild (by simp) (stable_never (· = w)) rfl ?_
  rintro now w x rfl hacts -
  have hcounted : Confined (fun _ => False) (fun _ => False) w x :=
    .of_acts hacts.1 hacts.2.2 trivial
  refine meets_served hmild (by simp) (stable_never (· = x)) rfl ?_
  rintro later x y rfl hacts htables
  have hread : Confined (fun _ => False) (fun _ => False) x y :=
    .of_acts hacts.1 hacts.2.2 trivial
  have hy := hcounted.trans hread
  split
  · exact Meets.pure (stable_never _) ⟨false, rfl, .of_unchanged hy⟩
  · rename_i current outcome hrevised
    obtain ⟨j, hj, hrevised⟩ := Option.bind_eq_some_iff.1 hrevised
    obtain ⟨hstatus, houtcome, hcurrent⟩ := Engine.of_revisedOutcome?_eq_some hrevised
    have hbefore : y.tables.statusOf job = some (.known current) := by
      have hrow : x.tables.job? job = some j := hj
      have hsame : y.tables = x.tables := htables
      rw [hsame, Tables.statusOf, hrow, Option.map_some, hstatus]
    have hfirst : w.tables.statusOf job = some (.known current) :=
      (hy.statusOf id).symm.trans hbefore
    refine meets_served hmild (by simp) (stable_never (· = y)) rfl ?_
    rintro last y z rfl hacts htables
    obtain ⟨hmoved, hafter⟩ := Tables.statusOf_moveJob last outcome hacts.1 hbefore
      (List.mem_singleton.2 rfl)
    rw [← htables] at hafter
    refine Meets.pure (stable_never _) ⟨true, by rw [hmoved], ?_, fun _ => ⟨?_, ?_⟩, ?_⟩
    · simp [hafter, hfirst, Engine.ne_of_revisedOutcome? hrevised]
    · exact ⟨current, hcurrent, hfirst⟩
    · exact ⟨outcome, JobStats.isOutcome_outcome _ houtcome, hafter⟩
    · exact (hy.mono (fun _ => id) fun _ => False.elim).trans (.of_acts hacts.1 hacts.2.2 rfl)

/-- Some jobs were reevaluated from one scene to another, and it was counted how many of them were
given another outcome. -/
structure AreReevaluated (ids : List Uuid) (finished : Nat) (w v : Scene) : Prop where
  finished_eq : finished = ids.countP fun id => v.tables.statusOf id != w.tables.statusOf id
  outcomes : ∀ id ∈ ids, v.tables.statusOf id ≠ w.tables.statusOf id →
    w.tables.HasOutcome id ∧ v.tables.HasOutcome id
  confined : Confined (fun _ => False) (· ∈ ids) w v

namespace AreReevaluated

theorem nil (w : Scene) : AreReevaluated [] 0 w w := ⟨rfl, by simp, .refl _ _ w⟩

/-- The others are reevaluated after one of them. -/
theorem cons {finished : Nat} (hfresh : job ∉ ids) (hfirst : IsReevaluated job changed w u)
    (hrest : AreReevaluated ids finished u v) :
    AreReevaluated (job :: ids) ((if changed then 1 else 0) + finished) w v := by
  have hown : v.tables.statusOf job = u.tables.statusOf job := hrest.confined.statusOf hfresh
  have hothers : ∀ id ∈ ids, u.tables.statusOf id = w.tables.statusOf id := by
    intro id hid
    exact hfirst.confined.statusOf fun heq => hfresh (heq ▸ hid)
  refine ⟨?_, List.forall_mem_cons.2 ⟨?_, fun id hid => ?_⟩, ?_⟩
  · have hcount :
        ids.countP (fun id => v.tables.statusOf id != w.tables.statusOf id) = finished := by
      rw [hrest.finished_eq]
      exact List.countP_congr fun id hid => by rw [hothers id hid]
    have hchanged : (v.tables.statusOf job != w.tables.statusOf job) = changed := by
      rw [Bool.eq_iff_iff, hfirst.changed_iff, hown, bne_iff_ne]
    rw [List.countP_cons, hcount, hchanged, Nat.add_comm]
  · have houtcome := hfirst.outcome
    unfold Tables.HasOutcome at houtcome ⊢
    rwa [hown]
  · have houtcome := hrest.outcomes id hid
    unfold Tables.HasOutcome at houtcome ⊢
    rwa [hothers id hid] at houtcome
  · exact (hfirst.confined.mono (fun _ => id) fun _ => by simp +contextual).trans
      (hrest.confined.mono (fun _ => id) fun _ => List.mem_cons_of_mem job)

end AreReevaluated

theorem reevaluates_reevaluateAll (hmild : around.IsMild) (hnodup : ids.Nodup) :
    (Engine.reevaluateAll ids).Meets (tellingTurns around) (fun _ _ => False) (fun _ _ => True)
      (fun finished v => AreReevaluated ids finished w v) w := by
  induction ids generalizing w with
  | nil => exact Meets.pure (stable_never _) (.nil w)
  | cons id rest ih =>
      obtain ⟨hfresh, hnodup⟩ := List.nodup_cons.1 hnodup
      apply Meets.bind
      apply (reevaluates_reevaluate hmild id).weaken
      rintro - u ⟨changed, rfl, hfirst⟩
      apply Meets.bind
      apply (ih hnodup).weaken
      intro more v hrest
      refine Meets.pure (stable_never _) ?_
      have hcons := hrest.cons hfresh hfirst
      cases changed <;> exact hcons

theorem distinct_nodup (ids : List Uuid) : (Engine.distinct ids).Nodup := by
  induction ids with
  | nil => exact List.nodup_nil
  | cons id rest ih =>
      refine List.nodup_cons.2 ⟨fun hid => ?_, ih.filter _⟩
      simpa using (List.mem_filter.1 hid).2

/-- A pass of checks went from one scene to another: it settled some of its batch of items, gave
some jobs another outcome, and counted both. -/
structure IsPass (e : Engine) (w : Scene) (report : TickReport) (v : Scene) : Prop where
  report_eq : report =
    { reconciled := (w.tables.queuedItems e.settings.reconcileBatchSize).countP fun i =>
        v.tables.itemStatus i.id != some (.known .queued)
      finished := w.tables.jobs.countP fun j => v.tables.statusOf j.id != some j.status }
  items : ∀ i ∈ w.tables.queuedItems e.settings.reconcileBatchSize,
    ∃ moved, IsChecked i.id moved v
  outcomes : ∀ id, v.tables.statusOf id ≠ w.tables.statusOf id →
    w.tables.HasOutcome id ∧ v.tables.HasOutcome id
  confined :
    Confined (· ∈ (w.tables.queuedItems e.settings.reconcileBatchSize).map Item.id) (fun _ => True)
      w v

/-- Items that are queued are stamped and stay queued. -/
theorem areQueued_of_stamp {answer : (StoreCall.checkItems ids).Answer}
    (hacts : tellingTurns around (.store (.checkItems ids)) answer u v) (hu : IsIn item .queued u) :
    IsIn item .queued v :=
  isIn_of_acts (s := .stamping ids) hacts (fun _ => id) (fun _ => id) (fun _ => id) hu

/-- The items that moved, by what became of all of them. -/
theorem length_moved {moves : List Bool}
    (h : List.Forall₂ (fun i moved => IsChecked i.id moved v) items moves) :
    ((items.zip moves).filter Prod.snd).length =
      items.countP fun i => v.tables.itemStatus i.id != some (.known .queued) := by
  induction h with
  | nil => rfl
  | @cons i moved rest moves hi _ ih =>
      have hmoved : (v.tables.itemStatus i.id != some (.known .queued)) = moved := by
        rw [Bool.eq_iff_iff, hi.moved_iff, bne_iff_ne]
      rw [List.countP_cons, ← ih, hmoved]
      cases moved <;> simp

/-- Lists without repetitions that agree where a test holds are counted alike. -/
theorem countP_eq_of_nodup {α : Type} {xs ys : List α} {test : α → Bool} (hxs : xs.Nodup)
    (hys : ys.Nodup) (h : ∀ x, test x = true → (x ∈ xs ↔ x ∈ ys)) :
    xs.countP test = ys.countP test := by
  rw [List.countP_eq_length_filter, List.countP_eq_length_filter]
  apply List.Perm.length_eq
  rw [List.perm_ext_iff_of_nodup (hxs.filter test) (hys.filter test)]
  intro x
  rw [List.mem_filter, List.mem_filter]
  exact and_congr_left fun hx => h x hx

/-- All jobs that changed their status are among some of them, and had an outcome. -/
theorem countP_statusOf (hw : w.tables.IsWellFormed) (hnodup : ids.Nodup)
    (hchanged : ∀ id, v.tables.statusOf id ≠ w.tables.statusOf id →
      id ∈ ids ∧ w.tables.HasOutcome id) :
    ids.countP (fun id => v.tables.statusOf id != w.tables.statusOf id) =
      w.tables.jobs.countP fun j => v.tables.statusOf j.id != some j.status := by
  rw [countP_eq_of_nodup hnodup hw.jobs_nodup fun id hid => ?_, List.countP_map]
  · exact List.countP_congr fun j hj => by
      rw [Function.comp_apply, Tables.statusOf_of_mem hw hj]
  · rw [bne_iff_ne] at hid
    obtain ⟨hmem, outcome, -, houtcome⟩ := hchanged id hid
    obtain ⟨j, hrow, -⟩ := Option.map_eq_some_iff.1 houtcome
    obtain ⟨hj, rfl⟩ := (Tables.job?_eq_some_iff hw).1 hrow
    exact iff_of_true hmem (List.mem_map_of_mem hj)

/-- Items are checked side by side. -/
theorem meets_forEach_reconcileItem (hmild : around.IsMild) (hnodup : (items.map Item.id).Nodup)
    (hw : ∀ i ∈ items, IsIn i.id .queued w) :
    (Program.forEach .permitted items e.reconcileItem).Meets (tellingTurns around)
      (fun _ _ => False) (fun _ _ => True)
      (fun moves v => List.Forall₂ (fun i moved => IsChecked i.id moved v) items moves ∧
        Confined (· ∈ items.map Item.id) (fun _ => False) w v) w := by
  have hasks : (Program.forEach .permitted items e.reconcileItem).Asks
      (Effect.Within (.confined (· ∈ items.map Item.id) fun _ => False)) :=
    Asks.forEach fun i hi => Engine.asks_reconcileItem e (List.mem_map_of_mem hi)
  have hchecks : (Program.forEach .permitted items e.reconcileItem).Meets (tellingTurns around)
      (fun _ _ => False) (fun _ _ => True)
      (fun moves v => List.Forall₂ (fun i moved => IsChecked i.id moved v) items moves) w :=
    meets_forEach_items hnodup (fun _ _ _ _ => False.elim)
      (fun i _ => Engine.asks_reconcileItem e rfl) (fun i hi => fares_reconcileItem hmild (hw i hi))
      fun _ _ moved => IsChecked.stable moved
  exact ((Meets.confined hasks hchecks).keeping (stable_never _) (Confined.stable w)
    (.refl _ _ w)).mono (fun _ _ h => h) (fun _ _ _ => trivial) fun _ _ h => h

/-- Queued items are checked, and the jobs of those that moved are reevaluated. -/
theorem passes_reconcileItems (hmild : around.IsMild) (hw : w.tables.IsWellFormed)
    (hitems : items = w.tables.queuedItems e.settings.reconcileBatchSize)
    (htables : u.tables = w.tables) (hbefore : Confined (fun _ => False) (fun _ => False) w u) :
    (e.reconcileItems items).run.Meets (tellingTurns around) (fun _ _ => False) (fun _ _ => True)
      (fun result v => ∃ report, result = .ok report ∧ IsPass e w report v) u := by
  have hnodup : (items.map Item.id).Nodup := hitems ▸ Tables.queuedItems_nodup hw _
  have hqueued : ∀ i ∈ items, IsIn i.id .queued u := by
    rw [hitems]
    intro i hi
    obtain ⟨hmem, hstatus⟩ := Tables.mem_queuedItems hi
    rw [IsIn, htables, Tables.itemStatus_of_mem hw hmem, hstatus]
  refine meets_served hmild (by simp) (stable_never (· = u)) rfl ?_
  rintro now u x rfl hacts -
  have hstamped : Confined (· ∈ items.map Item.id) (fun _ => False) u x :=
    .of_acts hacts.1 hacts.2.2 fun _ h => h
  apply Meets.lift
  apply (meets_forEach_reconcileItem hmild hnodup fun i hi =>
    areQueued_of_stamp hacts (hqueued i hi)).weaken
  rintro moves y ⟨hmoves, hchecked⟩
  apply Meets.lift
  apply (reevaluates_reevaluateAll hmild (distinct_nodup _)).weaken
  rintro finished v hreviewed
  refine Meets.pure (stable_never _) ⟨_, rfl, ?_⟩
  -- up to the review no job has changed its status, and from there on no item
  have hfirst : Confined (· ∈ items.map Item.id) (fun _ => False) w y :=
    ((hbefore.mono (fun _ => False.elim) fun _ => id).trans hstamped).trans hchecked
  have hitemStatus : ∀ id, v.tables.itemStatus id = y.tables.itemStatus id :=
    fun _ => hreviewed.confined.itemStatus id
  have hstatus : ∀ id, y.tables.statusOf id = w.tables.statusOf id := fun _ => hfirst.statusOf id
  have hfates : List.Forall₂ (fun i moved => IsChecked i.id moved v) items moves :=
    hmoves.imp fun i moved h => IsChecked.stable moved h (hreviewed.confined.aside id)
  have hchanged : ∀ id, v.tables.statusOf id ≠ w.tables.statusOf id →
      id ∈ Engine.distinct (((items.zip moves).filter Prod.snd).map fun p => p.1.jobId) := by
    intro id hid
    by_contra hout
    exact hid ((hreviewed.confined.statusOf hout).trans (hstatus id))
  have houtcomes : ∀ id, v.tables.statusOf id ≠ w.tables.statusOf id →
      w.tables.HasOutcome id ∧ v.tables.HasOutcome id := by
    intro id hid
    have hboth := hreviewed.outcomes id (hchanged id hid) (by rwa [hstatus])
    unfold Tables.HasOutcome at hboth ⊢
    rwa [hstatus] at hboth
  subst hitems
  refine ⟨?_, ?_, fun id hid => ?_, ?_⟩
  · rw [List.length_map, length_moved hfates, hreviewed.finished_eq]
    simp only [hstatus]
    rw [countP_statusOf hw (distinct_nodup _) fun id hid => ⟨hchanged id hid, (houtcomes id hid).1⟩]
  · exact ((List.forall₂_and_left _ _).1 (hfates.imp fun i moved h => ⟨⟨moved, h⟩, h⟩)).1
  · exact houtcomes id hid
  · exact (hfirst.mono (fun _ => id) fun _ => False.elim).trans
      (hreviewed.confined.mono (fun _ => False.elim) fun _ _ => trivial)

/-- The queued items whose turn it is are checked. -/
theorem passes_reconcile (hmild : around.IsMild) (hw : w.tables.IsWellFormed) :
    e.reconcile.run.Meets (tellingTurns around) (fun _ _ => False) (fun _ _ => True)
      (fun result v => ∃ report, result = .ok report ∧ IsPass e w report v) w := by
  refine meets_served hmild (by simp) (stable_never (· = w)) rfl ?_
  rintro now w x rfl hacts htables
  have hlisted : Confined (fun _ => False) (fun _ => False) w x :=
    .of_acts hacts.1 hacts.2.2 trivial
  have hitems : (w.tables.serve now (.queuedItems e.settings.reconcileBatchSize)).1 =
      w.tables.queuedItems e.settings.reconcileBatchSize := rfl
  rw [hitems]
  split
  · rename_i hempty
    have hnone := List.isEmpty_iff.1 hempty
    have hsame : ∀ id, x.tables.statusOf id = w.tables.statusOf id := fun _ => hlisted.statusOf id
    refine Meets.pure (stable_never _) ⟨_, rfl, ?_, by simp [hnone], fun id hid => ?_, ?_⟩
    · have hcount :
          w.tables.jobs.countP (fun j => x.tables.statusOf j.id != some j.status) = 0 := by
        rw [List.countP_eq_zero]
        intro j hj
        simp [hsame, Tables.statusOf_of_mem hw hj]
      rw [hcount]
      simp [hnone]
    · exact absurd (hsame id) hid
    · exact hlisted.mono (fun _ => False.elim) fun _ _ => trivial
  · exact passes_reconcileItems hmild hw rfl htables hlisted

end Mailroom
