import Mailroom.Proofs.Jobs.Driving

/-!
Reviewing jobs.  When servers report on queued items, the jobs of the items that moved are counted
again, and those that have finished get the outcome of the new counts.  Main statement: a job that
was balanced before the items were checked is balanced when the jobs have been reviewed.
-/

namespace Mailroom

open Program (Asks Meets)

variable {e : Engine} {actor : Actor} {job : Uuid} {ids : List Uuid} {u v w : Scene}

/-- Nothing may be written but what a server says about one item. -/
def Scope.checking (item : Uuid) : Scope where
  items id source := id = item ∧ source = .queued
  mail _ := False
  stamps _ := False
  renews _ := False
  moves _ _ _ := False
  counts _ := False
  creates _ := False

/-- In a step, one item may be moved from being queued to being sent or failed. -/
structure Checked (item : Uuid) (u v : Scene) : Prop where
  jobs : v.tables.jobs = u.tables.jobs
  items : ∃ f : Item → Item, v.tables.items = u.tables.items.map f ∧
    ∀ i ∈ u.tables.items, (f i).id = i.id ∧ (f i).jobId = i.jobId ∧
      (f i = i ∨ (i.id = item ∧ i.status = .known .queued ∧
        ((f i).status = .known .sent ∨ (f i).status = .known .failed)))

theorem StoreCall.onItem_checking {now : Timestamp} {c : StoreCall} {i : Item} {item : Uuid}
    (hwithin : (Effect.store c).Within (.checking item)) :
    c.onItem now i = i ∨ (i.id = item ∧ i.status = .known .queued ∧
      ((c.onItem now i).status = .known .sent ∨ (c.onItem now i).status = .known .failed)) := by
  cases c with
  | checkItems ids =>
      have hnil : ids = [] := List.eq_nil_iff_forall_not_mem.2 fun id hid => hwithin id hid
      subst hnil
      exact .inl rfl
  | queueItem id remoteId => cases hwithin.2
  | failItem id source error =>
      rcases hwithin with ⟨rfl, rfl⟩
      by_cases hi : Tables.isItemIn id .queued i = true
      · have hrow := hi
        simp only [Tables.isItemIn, Bool.and_eq_true, beq_iff_eq] at hrow
        exact .inr ⟨hrow.1, hrow.2, .inr (by simp [onItem, hi])⟩
      · exact .inl (by simp [onItem, hi])
  | confirmItem id =>
      rcases hwithin with ⟨rfl, -⟩
      by_cases hi : Tables.isItemIn id .queued i = true
      · have hrow := hi
        simp only [Tables.isItemIn, Bool.and_eq_true, beq_iff_eq] at hrow
        exact .inr ⟨hrow.1, hrow.2, .inl (by simp [onItem, hi])⟩
      · exact .inl (by simp [onItem, hi])
  | resetFailed job => exact absurd hwithin id
  | _ => exact .inl rfl

theorem checked_of_tables_eq {item : Uuid} (htables : v.tables = u.tables) : Checked item u v :=
  ⟨by rw [htables], id, by rw [htables, List.map_id], fun _ _ => ⟨rfl, rfl, .inl rfl⟩⟩

theorem checked_of_within {item : Uuid} {effect : Effect} {answer : effect.Answer}
    {around : Surroundings} (hu : u.tables.IsWellFormed)
    (hacts : around.acts actor effect answer u v) (hwithin : effect.Within (.checking item)) :
    Checked item u v := by
  rcases Surroundings.acts_tables hacts with htables | ⟨call, now, rfl | rfl, htables⟩
  · exact checked_of_tables_eq htables
  · have hnew : call.newJobs u.tables now = [] ∧ call.newItems u.tables now = [] := by
      cases call with
      | createJob n items => exact absurd hwithin id
      | _ => exact ⟨rfl, rfl⟩
    constructor
    · rw [htables, Tables.jobs_serve hu, hnew.1, List.append_nil]
      conv_rhs => rw [← List.map_id u.tables.jobs]
      exact List.map_congr_left fun j _ =>
        StoreCall.onJob_eq_self hwithin (fun _ _ h => h) fun h => h
    · refine ⟨fun i => call.onItem now i, ?_, fun i _ => ?_⟩
      · rw [htables, Tables.items_serve hu, hnew.2, List.append_nil]
      · exact ⟨call.onItem_id now i, call.onItem_jobId now i, StoreCall.onItem_checking hwithin⟩
  · exact absurd hwithin id

/-- A job that has finished has no pending items. -/
def IsTried (job : Uuid) (s : Scene) : Prop :=
  ∀ j outcome, s.tables.job? job = some j → j.status = .known outcome → outcome.IsOutcome →
    .known .pending ∉ (s.tables.itemsOf job).map Item.status

theorem Balanced.isTried (hw : Balanced job w) : IsTried job w := by
  intro j outcome hj hstatus houtcome
  apply JobStats.outcome_ofStatuses_isSome_iff.1
  have hsome := hw.concluded j outcome hj hstatus houtcome
  rw [Tables.statsOf] at hsome
  rw [hsome]
  rfl

theorem IsTried.stable : Stable (Steady job) (IsTried job) := by
  intro u v hu hsteady j outcome hj hstatus houtcome
  rw [hsteady.statuses]
  exact hu j outcome (hsteady.row ▸ hj) hstatus houtcome

/-- An item is sent or has failed. -/
def HasMoved (item : Uuid) (s : Scene) : Prop :=
  ∃ i ∈ s.tables.items, i.id = item ∧ (i.status = .known .sent ∨ i.status = .known .failed)

def IsStillQueued (item : Uuid) (s : Scene) : Prop :=
  ∀ i ∈ s.tables.items, i.id = item → i.status = .known .queued

theorem HasMoved.not_queued {item : Uuid} (h : HasMoved item w) : ¬ IsStillQueued item w := by
  rcases h with ⟨i, hi, hid, hstatus⟩
  intro hqueued
  rw [hqueued i hi hid] at hstatus
  rcases hstatus with h | h <;> cases h

theorem HasMoved.checked {item other : Uuid} (hu : HasMoved item u) (h : Checked other u v) :
    HasMoved item v := by
  rcases hu with ⟨i, hi, hid, hstatus⟩
  obtain ⟨f, hitems, hf⟩ := h.items
  obtain ⟨-, -, hsame | ⟨-, hqueued, -⟩⟩ := hf i hi
  · have hmem : f i ∈ v.tables.items := hitems ▸ List.mem_map_of_mem hi
    rw [hsame] at hmem
    exact ⟨i, hmem, hid, hstatus⟩
  · rw [hqueued] at hstatus
    rcases hstatus with h | h <;> cases h

theorem IsStillQueued.checked {item other : Uuid} (hne : other ≠ item) (hu : IsStillQueued item u)
    (h : Checked other u v) : IsStillQueued item v := by
  intro k hk hid
  obtain ⟨f, hitems, hf⟩ := h.items
  rw [hitems] at hk
  obtain ⟨i, hi, rfl⟩ := List.mem_map.1 hk
  obtain ⟨hsameId, -, hsame | ⟨hitem, -⟩⟩ := hf i hi
  · rw [hsame]
    exact hu i hi (hsameId.symm.trans hid)
  · exact absurd (hitem.symm.trans (hsameId.symm.trans hid)) hne

/-- While some items are checked, a job stays tried, and it stays balanced until one of its own
moves. -/
def IsReviewable (job : Uuid) (items : List Item) (s : Scene) : Prop :=
  IsTried job s ∧ (Balanced job s ∨ ∃ i ∈ items, i.jobId = job ∧ HasMoved i.id s)

theorem itemsOf_checked (job : Uuid) {item : Uuid} (h : Checked item u v) :
    ∃ f : Item → Item, v.tables.itemsOf job = (u.tables.itemsOf job).map f ∧
      ∀ i ∈ u.tables.itemsOf job, f i = i ∨ (i.id = item ∧ f i ∈ v.tables.items ∧
        (f i).id = item ∧ ((f i).status = .known .sent ∨ (f i).status = .known .failed)) := by
  obtain ⟨f, hitems, hf⟩ := h.items
  refine ⟨f, ?_, fun i hi => ?_⟩
  · rw [Tables.itemsOf, hitems, List.filter_map, Tables.itemsOf]
    congr 1
    exact List.filter_congr fun i hi => by simp [(hf i hi).2.1]
  · obtain ⟨hi, -⟩ := Tables.mem_itemsOf.1 hi
    obtain ⟨hid, -, hsame | ⟨hitem, -, hmoved⟩⟩ := hf i hi
    · exact .inl hsame
    · exact .inr ⟨hitem, hitems ▸ List.mem_map_of_mem hi, hid.trans hitem, hmoved⟩

theorem IsTried.checked {item : Uuid} (hu : IsTried job u) (h : Checked item u v) :
    IsTried job v := by
  intro j outcome hj hstatus houtcome hmem
  obtain ⟨f, hitems, hf⟩ := itemsOf_checked job h
  have hrow : u.tables.job? job = some j := by
    rw [← hj, Tables.job?, Tables.job?, h.jobs]
  apply hu j outcome hrow hstatus houtcome
  obtain ⟨k, hk, hpending⟩ := List.mem_map.1 hmem
  rw [hitems] at hk
  obtain ⟨i, hi, rfl⟩ := List.mem_map.1 hk
  rcases hf i hi with hsame | ⟨-, -, -, hmoved⟩
  · rw [hsame] at hpending
    exact List.mem_map.2 ⟨i, hi, hpending⟩
  · rw [hpending] at hmoved
    rcases hmoved with h | h <;> cases h

/-- What is pledged in the task that checks an item. -/
def PledgesCheck (job : Uuid) (ids : List Uuid) (item : Uuid) (u v : Scene) : Prop :=
  IsKnown job ids u ∧ Checked item u v

theorem IsReviewable.stable {items : List Item} {k : Item} (hk : k ∈ items)
    (howned : k.jobId = job ↔ k.id ∈ ids) :
    Stable (PledgesCheck job ids k.id) (IsReviewable job items) := by
  rintro u v ⟨htried, hbalanced⟩ ⟨hknown, hchecked⟩
  refine ⟨htried.checked hchecked, ?_⟩
  obtain ⟨f, hitems, hf⟩ := itemsOf_checked job hchecked
  rcases hbalanced with hbalanced | ⟨i, hi, hjob, hmoved⟩
  · by_cases hsame : ∀ i ∈ u.tables.itemsOf job, f i = i
    · refine .inl (Balanced.stable hbalanced ⟨?_, ?_⟩)
      · rw [Tables.job?, Tables.job?, hchecked.jobs]
      · rw [hitems, List.map_map]
        exact List.map_congr_left fun i hi => congrArg Item.status (hsame i hi)
    · -- the item that moved is one of the job's, and so is the one that was checked
      obtain ⟨i, hnot⟩ := not_forall.1 hsame
      obtain ⟨hi, hne⟩ := Classical.not_imp.1 hnot
      obtain ⟨hitem, hmem, hid, hmoved⟩ := (hf i hi).resolve_left hne
      obtain ⟨hrow, hjob⟩ := Tables.mem_itemsOf.1 hi
      refine .inr ⟨k, hk, howned.2 ?_, f i, hmem, hid, hmoved⟩
      exact hitem ▸ (hknown.2 i hrow).1 hjob
  · exact .inr ⟨i, hi, hjob, hmoved.checked hchecked⟩

section

variable {rely : Scene → Scene → Prop} {k : Item}

/-- A write that finds no row changes nothing. -/
theorem isStillQueued_of_not_found {item : Uuid} {source : ItemStatus} {change : Item → Item}
    {now : Timestamp} (hu : IsStillQueued k.id u)
    (hfound : (u.tables.moveItem item source change now).1 = false)
    (htables : v.tables = (u.tables.moveItem item source change now).2) :
    IsStillQueued k.id v := by
  unfold Tables.moveItem at hfound htables
  split at hfound
  · cases hfound
  · rename_i hnone
    rw [if_neg hnone] at htables
    rw [IsStillQueued, htables]
    exact hu

/-- The answer of a server is recorded: if the task says that the item did not move, it did not. -/
theorem meets_recordStatus {r : RemoteStatus} (hrely : Stable rely (IsStillQueued k.id))
    (hw : IsStillQueued k.id w) :
    (Engine.recordStatus k r).Meets (jobActs actor job ids) rely (PledgesCheck job ids k.id)
      (fun moved s => moved = false → IsStillQueued k.id s) w := by
  have hstable : ∀ moved : Bool, Stable rely fun s => moved = false → IsStillQueued k.id s :=
    fun moved u v hu hstep hmoved => hrely (hu hmoved) hstep
  have hchecks : ∀ {effect answer u v}, jobActs actor job ids effect answer u v →
      effect.Within (.checking k.id) → PledgesCheck job ids k.id u v :=
    fun hacts hwithin => ⟨hacts.1, checked_of_within hacts.1.1.wellFormed hacts.2.2 hwithin⟩
  unfold Engine.recordStatus
  split
  · apply Meets.request hrely hw
    intro answer u v hu hacts
    refine ⟨hchecks hacts ⟨rfl, rfl⟩, Meets.pure (hstable _) fun hmoved => ?_⟩
    obtain ⟨found, now, rfl, hfound, htables⟩ := jobActs_ok hacts (by simp)
    exact isStillQueued_of_not_found hu (hfound.symm.trans hmoved) htables
  · apply Meets.request hrely hw
    intro answer u v hu hacts
    refine ⟨hchecks hacts ⟨rfl, rfl⟩, Meets.pure (hstable _) fun hmoved => ?_⟩
    obtain ⟨found, now, rfl, hfound, htables⟩ := jobActs_ok hacts (by simp)
    exact isStillQueued_of_not_found hu (hfound.symm.trans hmoved) htables
  · exact Meets.pure (hstable _) fun _ => hw

theorem meets_reconcileItem (hrely : Stable rely (IsStillQueued k.id))
    (hw : IsStillQueued k.id w) :
    (e.reconcileItem k).Meets (jobActs actor job ids) rely (PledgesCheck job ids k.id)
      (fun moved s => moved = false → IsStillQueued k.id s) w := by
  have hstable : ∀ moved : Bool, Stable rely fun s => moved = false → IsStillQueued k.id s :=
    fun moved u v hu hstep hmoved => hrely (hu hmoved) hstep
  unfold Engine.reconcileItem
  split
  · exact Meets.pure (hstable _) fun _ => hw
  · split
    · apply Meets.request hrely hw
      intro answer u v hu hacts
      have hv : IsStillQueued k.id v := by
        rw [IsStillQueued, hacts.2.2.2.1.1]
        exact hu
      refine ⟨⟨hacts.1, checked_of_tables_eq hacts.2.2.2.1.1⟩, ?_⟩
      cases answer with
      | ok r => exact meets_recordStatus hrely hv
      | error error => exact Meets.pure (hstable _) fun _ => hv
    · exact Meets.pure (hstable _) fun _ => hw

end

def jobsMoved (items : List Item) (moved : List Bool) : List Uuid :=
  ((items.zip moved).filter Prod.snd).map fun p => p.1.jobId

theorem mem_jobsMoved {items : List Item} {results : Fin items.length → Bool}
    {i : Fin items.length} (hi : results i = true) :
    items[i].jobId ∈ jobsMoved items (List.ofFn results) := by
  refine List.mem_map.2 ⟨(items[i], results i), List.mem_filter.2 ⟨?_, hi⟩, rfl⟩
  refine List.mem_iff_getElem.2 ⟨i, ?_, ?_⟩
  · simp
  · simp

/-- When a batch was checked, the job is balanced or one of its items is known to have moved. -/
def IsReviewed (job : Uuid) (jobs : List Uuid) (s : Scene) : Prop :=
  IsTried job s ∧ (Balanced job s ∨ job ∈ jobs)

theorem ensures_checks {items : List Item} (hnodup : (items.map Item.id).Nodup)
    (howned : ∀ i ∈ items, i.jobId = job ↔ i.id ∈ ids)
    (hqueued : ∀ i ∈ items, IsStillQueued i.id w) (hw : Balanced job w) :
    Ensures actor job ids (.forEach .permitted items e.reconcileItem)
      (fun moved => IsReviewed job (jobsMoved items moved)) w := by
  have hreviewable : IsReviewable job items w := ⟨hw.isTried, .inl hw⟩
  refine Meets.forEach (fun i => PledgesCheck job ids items[i].id)
    (fun i moved s => moved = false → IsStillQueued items[i].id s) (IsReviewable job items)
    (fun _ _ _ _ => trivial) (fun i => ?_) hreviewable (stable_never _)
    (fun i => IsReviewable.stable (List.getElem_mem i.isLt) (howned _ (List.getElem_mem i.isLt)))
    (fun results v hv hposts => ?_) fun _ => stable_never _
  · refine meets_reconcileItem ?_ (hqueued _ (List.getElem_mem i.isLt))
    rintro u v hu (h | ⟨k, hk, -, hchecked⟩)
    · exact absurd h id
    · refine hu.checked (fun hid => hk ?_) hchecked
      have hsame : items[k] = items[i] := List.inj_on_of_nodup_map hnodup
        (List.getElem_mem k.isLt) (List.getElem_mem i.isLt) hid
      exact Fin.ext ((List.Nodup.of_map Item.id hnodup).getElem_inj_iff.1 hsame)
  · refine ⟨hv.1, hv.2.imp_right ?_⟩
    rintro ⟨k, hk, rfl, hmoved⟩
    obtain ⟨n, hn, rfl⟩ := List.getElem_of_mem hk
    apply mem_jobsMoved (i := ⟨n, hn⟩)
    by_contra hnot
    exact hmoved.not_queued (hposts ⟨n, hn⟩ (by simpa using hnot))

theorem eq_of_revisedOutcome?_eq_none {j : Job} {stats : JobStats} {current outcome : JobStatus}
    (h : Engine.revisedOutcome? j stats = none) (hstatus : j.status = .known current)
    (hcurrent : current.IsOutcome) (houtcome : stats.outcome = some outcome) :
    outcome = current := by
  by_contra hne
  have hfinished : current = .completed ∨ current = .failed := hcurrent
  simp [Engine.revisedOutcome?, hstatus, Stored.value?, houtcome, hfinished, hne] at h

/-- A job that has been counted, and these are its counts. -/
def IsReckoned (job : Uuid) (stats : JobStats) (s : Scene) : Prop :=
  IsTried job s ∧ s.tables.statsOf job = stats ∧
    ∀ j, s.tables.job? job = some j → j.stats = stats

theorem isReckoned_of_refresh {reply : JobStats} (hu : IsTried job u)
    (hacts : jobActs actor job ids (.store (.refreshStats job)) (.ok reply) u v) :
    IsReckoned job reply v := by
  have ht := hacts.1.1.wellFormed
  obtain ⟨now, hreply, htables⟩ := Surroundings.acts_ok hacts.2.2
  have hstats : v.tables.statsOf job = reply := by
    rw [htables, hreply]
    rfl
  have hrow : ∀ j, v.tables.job? job = some j → ∃ k, u.tables.job? job = some k ∧
      j.status = k.status ∧ j.stats = reply := by
    intro j hj
    cases hk : u.tables.job? job with
    | none =>
        rw [htables, job?_serve_of_none ht hk rfl] at hj
        cases hj
    | some k =>
        obtain ⟨-, rfl⟩ := (Tables.job?_eq_some_iff ht).1 hk
        rw [htables, Tables.job?_serve_of_some now ht _ hk] at hj
        obtain rfl := Option.some.inj hj
        refine ⟨k, rfl, ?_, ?_⟩
        · simp [StoreCall.onJob]
        · rw [hreply]
          simp [StoreCall.onJob, Tables.serve, Tables.refreshStats]
  refine ⟨fun j outcome hj hstatus houtcome => ?_, hstats, fun j hj => ?_⟩
  · obtain ⟨k, hk, hsame, -⟩ := hrow j hj
    have hitems : v.tables.itemsOf job = u.tables.itemsOf job := by
      rw [htables]
      rfl
    rw [hitems]
    exact hu k outcome hk (hsame ▸ hstatus) houtcome
  · obtain ⟨k, -, -, hcounted⟩ := hrow j hj
    exact hcounted

/-- A job whose outcome needs no revision is balanced. -/
theorem IsReckoned.balanced {stats : JobStats} (hw : IsReckoned job stats w)
    (hnone : ((w.tables.job? job).bind fun j => Engine.revisedOutcome? j stats) = none) :
    Balanced job w := by
  rcases hw with ⟨htried, hstats, hcounted⟩
  constructor
  · intro j hj
    rw [hstats]
    exact hcounted j hj
  · intro j outcome hj hstatus houtcome
    have hsome := JobStats.outcome_ofStatuses_isSome_iff.2 (htried j outcome hj hstatus houtcome)
    obtain ⟨actual, hactual⟩ := Option.isSome_iff_exists.1 hsome
    rw [← Tables.statsOf, hstats] at hactual
    rw [hj, Option.bind_some] at hnone
    rw [hstats, hactual, eq_of_revisedOutcome?_eq_none hnone hstatus houtcome hactual]

/-- A job that has finished gets the outcome of its new counts. -/
theorem ensures_reevaluate (hw : IsTried job w) :
    Ensures actor job ids (Engine.reevaluate job).run (fun _ => Balanced job) w := by
  apply meets_store (by simp) (stable_never _) hw
  intro stats u v hu hacts
  have hv := isReckoned_of_refresh hu hacts
  apply meets_store (by simp) (stable_never _) hv
  intro row x y hx hacts
  obtain ⟨now, hreply, htables⟩ := Surroundings.acts_ok hacts.2.2
  have hsame : y.tables = x.tables := htables
  have hy : IsReckoned job stats y := by
    simpa only [IsReckoned, IsTried, hsame] using hx
  obtain rfl : row = y.tables.job? job := by
    rw [hsame]
    exact hreply
  split
  · rename_i hnone
    exact Meets.pure (stable_never _) (hy.balanced hnone)
  · rename_i current outcome hsome
    obtain ⟨j, hj, hrevised⟩ := Option.bind_eq_some_iff.1 hsome
    obtain ⟨hstatus, houtcome, -⟩ := Engine.of_revisedOutcome?_eq_some hrevised
    have hleaves : Tables.canLeave [current] j = true := by
      simp [Tables.canLeave, hstatus, Stored.value?]
    apply meets_store (P := fun s => IsReckoned job stats s ∧ s.tables.job? job = some j) (by simp)
      (stable_never _) ⟨hy, hj⟩
    intro moved z z' hz hacts
    rcases hz with ⟨⟨-, hstats, hcounted⟩, hrow⟩
    exact Meets.pure (stable_never _)
      (balanced_of_move hacts hrow hleaves hstats (hcounted j hrow) houtcome)

theorem ensures_reevaluateAll (jobs : List Uuid) (hw : IsReviewed job jobs w) :
    Ensures actor job ids (Engine.reevaluateAll jobs) (fun _ => Balanced job) w := by
  induction jobs generalizing w with
  | nil => exact Meets.pure (stable_never _) (hw.2.resolve_right (List.not_mem_nil))
  | cons id rest ih =>
      have hrest : ∀ u, IsReviewed job rest u →
          Ensures actor job ids (Engine.reevaluateAll rest) (fun _ => Balanced job) u :=
        fun u hu => ih hu
      by_cases hid : id = job
      · subst hid
        apply Meets.bind
        apply (ensures_reevaluate hw.1).weaken
        intro changed u hu
        apply Meets.bind
        apply (hrest u ⟨hu.isTried, .inl hu⟩).weaken
        intro more v hv
        exact Meets.pure (stable_never _) hv
      · have hstable : Stable (Steady job) (IsReviewed job rest) :=
          fun u v hu hstep => ⟨IsTried.stable hu.1 hstep,
            hu.2.imp_left fun h => Balanced.stable h hstep⟩
        have hw' : IsReviewed job rest w :=
          ⟨hw.1, hw.2.imp_right fun h => (List.mem_cons.1 h).resolve_left fun h => hid h.symm⟩
        refine Meets.bind (((calm_alone hstable).meets
          (Engine.asks_reevaluate hid fun _ _ _ _ => hid) hw').weaken fun changed u hu => ?_)
        apply Meets.bind
        apply (hrest u hu).weaken
        intro more v hv
        exact Meets.pure (stable_never _) hv

theorem mem_distinct {id : Uuid} {jobs : List Uuid} : id ∈ Engine.distinct jobs ↔ id ∈ jobs := by
  induction jobs with
  | nil => rfl
  | cons other rest ih =>
      simp only [Engine.distinct, List.mem_cons, List.mem_filter, ih, bne_iff_ne, ne_eq]
      constructor
      · rintro (h | ⟨h, -⟩)
        · exact .inl h
        · exact .inr h
      · rintro (h | h)
        · exact .inl h
        · by_cases hid : id = other
          · exact .inl hid
          · exact .inr ⟨h, hid⟩

/-- Items that are stamped as checked stay queued. -/
theorem isStillQueued_of_stamp {item : Uuid} {stamped : List Uuid}
    {reply : (StoreCall.checkItems stamped).Reply} (hu : IsStillQueued item u)
    (hacts : jobActs actor job ids (.store (.checkItems stamped)) (.ok reply) u v) :
    IsStillQueued item v := by
  intro row hrow hid
  obtain ⟨now, -, htables⟩ := Surroundings.acts_ok hacts.2.2
  rw [htables, Tables.items_serve hacts.1.1.wellFormed] at hrow
  simp only [StoreCall.newItems, List.append_nil] at hrow
  obtain ⟨k, hk, rfl⟩ := List.mem_map.1 hrow
  rw [StoreCall.onItem_id] at hid
  rw [← hu k hk hid]
  simp only [StoreCall.onItem]
  split <;> rfl

/-- A batch of queued items is checked, and the jobs of those that moved are reviewed. -/
theorem ensures_reconcileItems {items : List Item} (hnodup : (items.map Item.id).Nodup)
    (howned : ∀ i ∈ items, i.jobId = job ↔ i.id ∈ ids)
    (hqueued : ∀ i ∈ items, IsStillQueued i.id w) (hw : Balanced job w) :
    Ensures actor job ids (e.reconcileItems items).run (fun _ => Balanced job) w := by
  let P (s : Scene) : Prop := Balanced job s ∧ ∀ i ∈ items, IsStillQueued i.id s
  apply meets_store (P := P) (by simp) (stable_never _) ⟨hw, hqueued⟩
  intro reply u v hu hacts
  have hv := ((calm_alone Balanced.stable).keeps hacts (fun _ _ => trivial) hu.1).2
  have hstill : ∀ i ∈ items, IsStillQueued i.id v :=
    fun i hi => isStillQueued_of_stamp (hu.2 i hi) hacts
  apply Meets.lift
  apply (ensures_checks hnodup howned hstill hv).weaken
  intro moved x hx
  have hdistinct : IsReviewed job (Engine.distinct (jobsMoved items moved)) x :=
    ⟨hx.1, hx.2.imp_right mem_distinct.2⟩
  apply Meets.lift
  apply (ensures_reevaluateAll _ hdistinct).weaken
  intro finished y hy
  exact Meets.pure (stable_never _) hy

theorem ensures_reconcile (hw : Balanced job w) :
    Ensures actor job ids e.reconcile.run (fun _ => Balanced job) w := by
  apply meets_store (by simp) (stable_never _) hw
  intro items u v hu hacts
  have hv := ((calm_alone Balanced.stable).keeps hacts trivial hu).2
  obtain ⟨now, hreply, htables⟩ := Surroundings.acts_ok hacts.2.2
  have ht := hacts.1.1.wellFormed
  have hrow : ∀ i ∈ items, i ∈ u.tables.items ∧ i.status = .known .queued :=
    fun i hi => Tables.mem_queuedItems (hreply ▸ hi)
  split
  · exact Meets.pure (stable_never _) hv
  · apply ensures_reconcileItems
    · rw [hreply]
      exact Tables.queuedItems_nodup ht _
    · intro i hi
      exact hacts.1.2 i (hrow i hi).1
    · intro i hi k hk hid
      obtain ⟨hmem, hstatus⟩ := hrow i hi
      rw [htables] at hk
      rwa [List.inj_on_of_nodup_map ht.items_nodup hk hmem hid]
    · exact hv

end Mailroom
