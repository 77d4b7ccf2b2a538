import Mailroom.Proofs.Delivery.Fates

/-!
Batches of pending items.  Main statements: when a running job is driven, the items of its next
batch are settled and its report counts their outcomes, or without such items it is concluded by its
counts; and when all running jobs are driven, this holds of each and all else is left as it was.
-/

namespace Mailroom

open Engine (ItemOutcome)
open Program (Asks Meets)

variable {e : Engine} {around : Surroundings} {rely : Scene → Scene → Prop}
  {items xs ys : List Item} {report : TickReport} {u v w : Scene}

/-- Some items are settled, and a report counts their outcomes. -/
structure AreSettled (around : Surroundings) (items : List Item) (report : TickReport)
    (s : Scene) : Prop where
  report : report = .ofOutcomes (items.map fun i => s.outcomeOf i.id)
  fates : ∀ i ∈ items, IsFate around i.id (s.outcomeOf i.id) s

namespace AreSettled

theorem nil (s : Scene) : AreSettled around [] {} s := ⟨rfl, by simp⟩

theorem cons {i : Item} {outcome : ItemOutcome} (hi : IsFate around i.id outcome v)
    (hrest : AreSettled around items report v) :
    AreSettled around (i :: items) (outcome.report.add report) v := by
  obtain rfl := hi.outcomeOf_eq
  refine ⟨?_, List.forall_mem_cons.2 ⟨hi, hrest.fates⟩⟩
  rw [List.map_cons, TickReport.ofOutcomes_cons, ← hrest.report]

theorem append {report' : TickReport} (hxs : AreSettled around xs report v)
    (hys : AreSettled around ys report' v) :
    AreSettled around (xs ++ ys) (report.add report') v := by
  refine ⟨?_, List.forall_mem_append.2 ⟨hxs.fates, hys.fates⟩⟩
  rw [List.map_append, TickReport.ofOutcomes_append, ← hxs.report, ← hys.report]

theorem perm (hxs : AreSettled around xs report v) (hperm : xs.Perm ys) :
    AreSettled around ys report v := by
  refine ⟨?_, fun i hi => hxs.fates i (hperm.mem_iff.2 hi)⟩
  rw [hxs.report]
  exact TickReport.ofOutcomes_perm (hperm.map _)

/-- Steps that leave all of the items alone keep them settled. -/
theorem stable {steps : Scene → Scene → Prop}
    (hsteps : ∀ i ∈ items, ∀ u v, steps u v → Aside i.id u v) :
    Stable steps (AreSettled around items report) := by
  intro u v hu hstep
  have hsame : ∀ i ∈ items, v.outcomeOf i.id = u.outcomeOf i.id := by
    intro i hi
    rw [Scene.outcomeOf, (hsteps i hi u v hstep).itemStatus (not_not_intro rfl), Scene.outcomeOf]
  refine ⟨?_, fun i hi => ?_⟩
  · rw [hu.report, List.map_congr_left hsame]
  · rw [hsame i hi]
    exact IsFate.stable _ (hu.fates i hi) (hsteps i hi u v hstep)

end AreSettled

theorem areSettled_of_forall₂ {outcomes : List ItemOutcome}
    (h : List.Forall₂ (fun i outcome => IsFate around i.id outcome v) items outcomes) :
    AreSettled around items (.ofOutcomes outcomes) v := by
  induction h with
  | nil => exact .nil v
  | cons hi _ ih =>
      rw [TickReport.ofOutcomes_cons]
      exact .cons hi ih

def ArePending (items : List Item) (s : Scene) : Prop := ∀ i ∈ items, IsIn i.id .pending s

theorem ArePending.stable {steps : Scene → Scene → Prop}
    (hsteps : ∀ i ∈ items, ∀ u v, steps u v → Aside i.id u v) :
    Stable steps (ArePending items) :=
  fun u v hu hstep i hi => IsIn.stable .pending (hu i hi) (hsteps i hi u v hstep)

/-- A program of the engine that works on some items. -/
abbrev WorksOn (around : Surroundings) (rely : Scene → Scene → Prop) (items : List Item) {α : Type}
    (p : Program α) (post : α → Scene → Prop) (w : Scene) : Prop :=
  p.Meets (tellingTurns around) rely (Confined (· ∈ items.map Item.id) fun _ => False) post w

theorem WorksOn.of_subset {α : Type} {p : Program α} {post : α → Scene → Prop}
    (hp : WorksOn around rely xs p post w) (hsub : ∀ i ∈ xs, i ∈ ys) :
    WorksOn around rely ys p post w := by
  refine hp.mono (fun _ _ h => h) (fun _ _ h => h.mono (fun id hid => ?_) fun _ => id)
    fun _ _ h => h
  obtain ⟨i, hi, rfl⟩ := List.mem_map.1 hid
  exact List.mem_map_of_mem (hsub i hi)

/-- Work on some items leaves another one alone. -/
theorem aside_of_not_mem {item : Uuid} (hitem : ∀ i ∈ items, i.id ≠ item)
    (h : Confined (· ∈ items.map Item.id) (fun _ => False) u v) : Aside item u v := by
  apply h.aside
  rintro hmem
  obtain ⟨i, hi, hid⟩ := List.mem_map.1 hmem
  exact hitem i hi hid

theorem worksOn_recordQueued {i : Item} (remoteId : String)
    (hrely : ∀ u v, rely u v → Aside i.id u v) (hw : IsIn i.id .pending w) :
    WorksOn around rely [i] (Engine.recordQueued i.id remoteId) (IsFate around i.id) w := by
  have hasks : Asks (Effect.Within (.confined (· ∈ [i].map Item.id) fun _ => False))
      (Engine.recordQueued i.id remoteId) :=
    Engine.asks_recordQueued (.within List.mem_cons_self List.mem_cons_self) remoteId
  exact Meets.confined hasks
    ((fares_recordQueued remoteId hw).mono hrely (fun _ _ h => h) fun _ _ h => h)

/-- Items that were taken are recorded in turn, and those that are left have not been touched. -/
theorem worksOn_recordKnown {known : List (Uuid × String)} (hnodup : (items.map Item.id).Nodup)
    (hrely : ∀ i ∈ items, ∀ u v, rely u v → Aside i.id u v) (hw : ArePending items w) :
    WorksOn around rely (items.filter fun i => (known.lookup i.id).isSome)
      (Engine.recordKnown known items)
      (fun out v => out.1 = items.filter (fun i => (known.lookup i.id).isNone) ∧
        AreSettled around (items.filter fun i => (known.lookup i.id).isSome) out.2 v) w := by
  induction items generalizing w with
  | nil => exact Meets.pure (fun _ _ h _ => ⟨h.1, h.2.report, by simp⟩) ⟨rfl, .nil w⟩
  | cons i rest ih =>
      simp only [List.map_cons, List.nodup_cons] at hnodup
      obtain ⟨hfresh, hnodup⟩ := hnodup
      obtain ⟨hown, hothers⟩ := List.forall_mem_cons.1 hrely
      obtain ⟨hpending, hrest⟩ := List.forall_mem_cons.1 hw
      have hne : ∀ k ∈ rest, i.id ≠ k.id := fun k hk hid => hfresh (hid ▸ List.mem_map_of_mem hk)
      have hstable : ∀ (out : List Item × TickReport) (left settled : List Item),
          (∀ k ∈ settled, k ∈ i :: rest) →
            Stable rely fun v => out.1 = left ∧ AreSettled around settled out.2 v :=
        fun out left settled hsub =>
          (stable_const _ _).and (AreSettled.stable fun k hk => hrely k (hsub k hk))
      cases hknown : known.lookup i.id with
      | none =>
          simp only [Engine.recordKnown, hknown, List.filter_cons, Option.isNone_none,
            Option.isSome_none, Bool.false_eq_true, if_true, if_false]
          apply Meets.bind
          apply (ih hnodup hothers hrest).weaken
          rintro out v ⟨hleft, hsettled⟩
          refine Meets.pure (hstable _ _ _ fun k hk => ?_) ⟨by rw [hleft], hsettled⟩
          exact List.mem_cons_of_mem i (List.mem_of_mem_filter hk)
      | some remoteId =>
          simp only [Engine.recordKnown, hknown, List.filter_cons, Option.isNone_some,
            Option.isSome_some, Bool.false_eq_true, if_true, if_false]
          have hfirst : WorksOn around rely [i] (Engine.recordQueued i.id remoteId)
              (fun outcome v => IsFate around i.id outcome v ∧ ArePending rest v) w :=
            (worksOn_recordQueued remoteId hown hpending).keeping (ArePending.stable hothers)
              (ArePending.stable fun k hk u v => aside_of_not_mem (by simpa using hne k hk)) hrest
          apply Meets.bind
          apply (WorksOn.of_subset hfirst (by simp)).weaken
          rintro outcome u ⟨hfate, hrest⟩
          -- the record of the others leaves the item's fate alone
          have hothers := (ih hnodup hothers hrest).keeping
            (fun _ _ hu hstep => IsFate.stable outcome hu (hown _ _ hstep))
            (fun _ _ hu hstep => IsFate.stable outcome hu (aside_of_not_mem
              (fun k hk => (hne k (List.mem_of_mem_filter hk)).symm) hstep)) hfate
          apply Meets.bind
          apply (WorksOn.of_subset hothers fun k hk => List.mem_cons_of_mem i hk).weaken
          rintro out v ⟨⟨hleft, hsettled⟩, hfate⟩
          refine Meets.pure (hstable (out.1, outcome.report.add out.2) _ _ fun k hk => ?_)
            ⟨hleft, .cons hfate hsettled⟩
          rcases List.mem_cons.1 hk with rfl | hk
          · exact List.mem_cons_self
          · exact List.mem_cons_of_mem i (List.mem_of_mem_filter hk)

/-- What is left of a batch is sent, and the counts of its job are brought up to date. -/
theorem worksOn_sendLeft (hmild : around.IsMild) {j : Job} (recorded : TickReport)
    (hnodup : (items.map Item.id).Nodup) (hrely : ∀ i ∈ items, ∀ u v, rely u v → Aside i.id u v)
    (hw : ArePending items w) :
    WorksOn around rely items (e.sendLeft j items recorded).run
      (fun result v => ∃ report, result = .ok (recorded.add report) ∧
        AreSettled around items report v) w := by
  have hasks : Asks (Effect.Within (.confined (· ∈ items.map Item.id) fun _ => False))
      (e.sendLeft j items recorded).run :=
    Engine.asks_sendLeft e trivial
      (fun i hi => ⟨List.mem_map_of_mem hi, List.mem_map_of_mem hi⟩) recorded
  refine Meets.confined hasks ?_
  have hstable : ∀ result : Except String TickReport, Stable rely fun v =>
      ∃ report, result = .ok (recorded.add report) ∧ AreSettled around items report v := by
    rintro result u v ⟨report, hreport, hsettled⟩ hstep
    exact ⟨report, hreport, AreSettled.stable hrely hsettled hstep⟩
  unfold Engine.sendLeft
  split
  · rename_i hempty
    obtain rfl := List.isEmpty_iff.1 hempty
    refine meets_served hmild (by simp) (stable_const rely True) trivial fun now u v _ _ _ => ?_
    exact Meets.pure (hstable _) ⟨{}, rfl, .nil v⟩
  · have hcontext : (Engine.loadContext j).run.Meets (tellingTurns around) rely (fun _ _ => True)
        (fun _ => ArePending items) w := by
      apply Meets.keep (Engine.asks_loadContext (s := .confined (fun _ => False) fun _ => False) j)
        (ArePending.stable hrely) _ hw
      intro effect answer u v hwithin hu hacts
      have hstep := Confined.of_acts hacts.1 hacts.2.2 hwithin
      exact ⟨trivial, fun i hi => IsIn.stable .pending (hu i hi) (hstep.aside id)⟩
    apply Meets.lift
    apply hcontext.weaken
    intro context u hu
    have hdispatches : (Program.forEach .permitted items (e.dispatchItem context)).Meets
        (tellingTurns around) rely (fun _ _ => True)
        (fun outcomes v =>
          List.Forall₂ (fun i outcome => IsFate around i.id outcome v) items outcomes)
        u :=
      meets_forEach_items hnodup hrely (fun i _ => Engine.asks_dispatchItem e context rfl rfl)
        (fun i hi => fares_dispatchItem hmild context (hu i hi))
        fun i _ outcome => IsFate.stable outcome
    apply Meets.lift
    apply hdispatches.weaken
    intro outcomes v hv
    have hsettled := areSettled_of_forall₂ hv
    refine meets_served hmild (by simp) (AreSettled.stable hrely) hsettled ?_
    intro now x y hx hacts _
    have hstep : Confined (fun _ => False) (fun _ => False) x y :=
      .of_acts hacts.1 hacts.2.2 trivial
    refine Meets.pure (hstable _) ⟨_, by rw [TickReport.sum_report], ?_⟩
    exact AreSettled.stable (fun i _ u v h => h.aside id) hx hstep

/-- The items of a batch are recorded or sent. -/
theorem worksOn_driveItems (hmild : around.IsMild) {j : Job} (hnodup : (items.map Item.id).Nodup)
    (hrely : ∀ i ∈ items, ∀ u v, rely u v → Aside i.id u v) (hw : ArePending items w) :
    WorksOn around rely items (e.driveItems j items).run
      (fun result v => ∃ report, result = .ok report ∧ AreSettled around items report v) w := by
  apply Meets.serviceRequest (ArePending.stable hrely) hw
  intro known u v hu hacts
  have hstep : Confined (· ∈ items.map Item.id) (fun _ => False) u v :=
    .of_acts hacts.1 hacts.2.2 trivial
  refine ⟨hstep, ?_⟩
  have hv : ArePending items v := fun i hi => by
    rw [IsIn, hacts.2.2.2.1.2.1]
    exact hu i hi
  generalize htaken : (items.filter fun i => (known.lookup i.id).isSome) = taken
  generalize hleft : (items.filter fun i => (known.lookup i.id).isNone) = left
  have hsubTaken : ∀ i ∈ taken, i ∈ items := fun i hi => List.mem_of_mem_filter (htaken ▸ hi)
  have hsubLeft : ∀ i ∈ left, i ∈ items := fun i hi => List.mem_of_mem_filter (hleft ▸ hi)
  -- what is known to be taken tells the two parts of the batch apart
  have hapart : ∀ i ∈ taken, ∀ k ∈ left, i.id ≠ k.id := by
    subst htaken hleft
    intro i hi k hk hid
    have hsome := (List.mem_filter.1 hi).2
    have hnone := (List.mem_filter.1 hk).2
    rw [hid] at hsome
    cases hlookup : known.lookup k.id <;> simp [hlookup] at hsome hnone
  have hnodupLeft : (left.map Item.id).Nodup := by
    rw [← hleft]
    exact (List.filter_sublist.map Item.id).nodup hnodup
  have hrecord : WorksOn around rely taken (Engine.recordKnown known items)
      (fun out v => (out.1 = left ∧ AreSettled around taken out.2 v) ∧ ArePending left v) v := by
    subst htaken hleft
    exact (worksOn_recordKnown hnodup hrely hv).keeping
      (ArePending.stable fun i hi => hrely i (hsubLeft i hi))
      (ArePending.stable fun k hk u v => aside_of_not_mem fun i hi => hapart i hi k hk)
      fun i hi => hv i (hsubLeft i hi)
  apply Meets.lift
  apply (WorksOn.of_subset hrecord hsubTaken).weaken
  rintro ⟨rest, recorded⟩ x ⟨⟨hrest, hsettled⟩, hpending⟩
  obtain rfl : rest = left := hrest
  have hsend : WorksOn around rely rest (e.sendLeft j rest recorded).run
      (fun result v => (∃ report, result = .ok (recorded.add report) ∧
        AreSettled around rest report v) ∧ AreSettled around taken recorded v) x :=
    (worksOn_sendLeft hmild recorded hnodupLeft (fun i hi => hrely i (hsubLeft i hi))
      hpending).keeping (AreSettled.stable fun i hi => hrely i (hsubTaken i hi))
      (AreSettled.stable fun i hi u v => aside_of_not_mem fun k hk => (hapart i hi k hk).symm)
      hsettled
  apply (WorksOn.of_subset hsend hsubLeft).weaken
  rintro result y ⟨⟨report, rfl, hsent⟩, hrecorded⟩
  refine ⟨_, rfl, (hrecorded.append hsent).perm ?_⟩
  rw [← htaken, ← hleft]
  have hnot : ∀ i : Item, (known.lookup i.id).isNone = !(known.lookup i.id).isSome := fun i => by
    cases known.lookup i.id <;> rfl
  simp only [hnot]
  exact List.filter_append_perm _ items

/-- What a running job that has no next batch is concluded with. -/
def Engine.conclusion (e : Engine) (t : Tables) (job : Uuid) : Option JobStatus :=
  if (t.pendingItems job e.settings.batchSize).isEmpty then (t.statsOf job).outcome else none

/-- The report on a job that was driven from some tables to a scene: it counts the outcomes of the
items of the job's next batch, and whether the job was concluded. -/
def Engine.driven (e : Engine) (t : Tables) (v : Scene) (job : Uuid) : TickReport :=
  { TickReport.ofOutcomes
      ((t.pendingItems job e.settings.batchSize).map fun i => v.outcomeOf i.id) with
    finished := if (e.conclusion t job).isSome then 1 else 0 }

/-- A running job was driven from some tables to a scene. -/
structure IsDriven (e : Engine) (around : Surroundings) (t : Tables) (job : Uuid)
    (result : Except String TickReport) (v : Scene) : Prop where
  result : result = .ok (e.driven t v job)
  fates : ∀ i ∈ t.pendingItems job e.settings.batchSize, IsFate around i.id (v.outcomeOf i.id) v
  status : v.tables.statusOf job = some (.known ((e.conclusion t job).getD .running))

/-- A step works neither on the items that a job has in some tables nor on its status. -/
abbrev Elsewhere (t : Tables) (job : Uuid) : Scene → Scene → Prop :=
  Confined (fun id => ∀ i ∈ t.items, i.id = id → i.jobId ≠ job) (· ≠ job)

variable {j : Job} {job : Uuid} {t : Tables}

theorem Elsewhere.aside {i : Item} (h : Elsewhere t job u v) (hi : i ∈ t.items)
    (hjob : i.jobId = job) : Aside i.id u v :=
  Confined.aside h fun hout => hout i hi rfl hjob

theorem Elsewhere.aside_of_pending {limit : Int} {i : Item} (h : Elsewhere t job u v)
    (hi : i ∈ t.pendingItems job limit) : Aside i.id u v :=
  h.aside (Tables.mem_pendingItems hi).1 (Tables.mem_pendingItems hi).2.1

theorem Elsewhere.itemsOf (h : Elsewhere w.tables job w v) :
    v.tables.itemsOf job = w.tables.itemsOf job :=
  Confined.itemsOf h fun i hi hjob hout => hout i hi rfl hjob

theorem Elsewhere.pendingItems {limit : Int} (h : Elsewhere w.tables job w v) :
    v.tables.pendingItems job limit = w.tables.pendingItems job limit :=
  Confined.pendingItems h fun i hi hjob hout => hout i hi rfl hjob

theorem AreSettled.isDriven (hbatch : t.pendingItems job e.settings.batchSize ≠ [])
    (hsettled : AreSettled around (t.pendingItems job e.settings.batchSize) report v)
    (hrunning : v.tables.statusOf job = some (.known .running)) :
    IsDriven e around t job (.ok report) v := by
  have hnone : e.conclusion t job = none := by
    simp [Engine.conclusion, hbatch]
  refine ⟨?_, hsettled.fates, by rw [hnone]; exact hrunning⟩
  simp [Engine.driven, hnone, hsettled.report, TickReport.ofOutcomes]

theorem IsDriven.stable (result : Except String TickReport) :
    Stable (Elsewhere t job) (IsDriven e around t job result) := by
  intro u v hu hstep
  have hbefore : AreSettled around (t.pendingItems job e.settings.batchSize) _ u :=
    ⟨rfl, hu.fates⟩
  have hafter := AreSettled.stable (fun i hi u v h => Elsewhere.aside_of_pending h hi) hbefore hstep
  refine ⟨?_, hafter.fates, ?_⟩
  · rw [hu.result, Engine.driven, Engine.driven, hafter.report]
  · rw [Confined.statusOf hstep (not_not_intro rfl)]
    exact hu.status

theorem Tables.statusOf_moveJob {sources : List JobStatus} {source : JobStatus}
    (now : Timestamp) (target : JobStatus) (ht : t.IsWellFormed)
    (hstatus : t.statusOf job = some (.known source)) (hsource : source ∈ sources) :
    (t.serve now (.moveJob job sources target)).1.isSome = true ∧
      (t.serve now (.moveJob job sources target)).2.statusOf job = some (.known target) := by
  obtain ⟨j, hj, hknown⟩ := Option.map_eq_some_iff.1 hstatus
  obtain ⟨-, rfl⟩ := (job?_eq_some_iff ht).1 hj
  have hleaves : canLeave sources j = true := by simp [canLeave, hknown, Stored.value?, hsource]
  constructor
  · rw [serve, moveJob_of_canLeave hj hleaves]
    rfl
  · rw [statusOf, job?_serve_of_some now ht _ hj]
    simp [StoreCall.onJob, hleaves, movedTo]

/-- A job without a next batch is concluded by its counts. -/
theorem drives_finish (hmild : around.IsMild)
    (hempty : w.tables.pendingItems j.id e.settings.batchSize = [])
    (hrunning : w.tables.statusOf j.id = some (.known .running))
    (hu : Elsewhere w.tables j.id w u) :
    (Engine.finish j).run.Meets (tellingTurns around) (Elsewhere w.tables j.id) (fun _ _ => True)
      (IsDriven e around w.tables j.id) u := by
  have hstable : Stable (Elsewhere w.tables j.id) (Elsewhere w.tables j.id w) := Confined.stable w
  have hconclusion : e.conclusion w.tables j.id = (w.tables.statsOf j.id).outcome := by
    simp [Engine.conclusion, hempty]
  refine meets_served hmild (by simp) hstable hu fun now x y hx hacts _ => ?_
  have hreply : (x.tables.serve now (.refreshStats j.id)).1 = w.tables.statsOf j.id := by
    change x.tables.statsOf j.id = w.tables.statsOf j.id
    rw [Tables.statsOf, Elsewhere.itemsOf hx, Tables.statsOf]
  have hstep : Confined (fun _ => False) (fun _ => False) x y :=
    .of_acts hacts.1 hacts.2.2 trivial
  have hy : Elsewhere w.tables j.id w y :=
    hx.trans (hstep.mono (fun _ => False.elim) fun _ => False.elim)
  rw [hreply]
  split
  · rename_i houtcome
    refine Meets.pure (IsDriven.stable _) ⟨?_, by simp [hempty], ?_⟩
    · simp [Engine.driven, hempty, hconclusion, houtcome, TickReport.ofOutcomes]
    · rw [Confined.statusOf hy (not_not_intro rfl), hconclusion, houtcome]
      exact hrunning
  · rename_i outcome houtcome
    refine meets_served hmild (by simp) hstable hy fun later x y hx hacts htables => ?_
    have hstatus : x.tables.statusOf j.id = some (.known .running) :=
      (Confined.statusOf hx (not_not_intro rfl)).trans hrunning
    obtain ⟨hmoved, hafter⟩ := Tables.statusOf_moveJob later outcome hacts.1 hstatus
      (List.mem_singleton.2 rfl)
    refine Meets.pure (IsDriven.stable _) ⟨?_, by simp [hempty], ?_⟩
    · simp [Engine.driven, hempty, hconclusion, houtcome, TickReport.ofOutcomes, hmoved]
    · rw [htables, hafter, hconclusion, houtcome]
      rfl

/-- A batch of a running job's items is recorded or sent. -/
theorem drives_batch (hmild : around.IsMild) (hw : w.tables.IsWellFormed)
    (hrunning : w.tables.statusOf j.id = some (.known .running))
    (hitems : w.tables.pendingItems j.id e.settings.batchSize = items) (hbatch : items ≠ [])
    (hu : Elsewhere w.tables j.id w u) :
    (e.driveItems j items).run.Meets (tellingTurns around) (Elsewhere w.tables j.id)
      (Confined (· ∈ items.map Item.id) (· = j.id)) (IsDriven e around w.tables j.id) u := by
  have hrows : ∀ i ∈ items, i ∈ w.tables.items ∧ i.jobId = j.id ∧ i.status = .known .pending :=
    fun i hi => Tables.mem_pendingItems (hitems ▸ hi)
  have haside : ∀ i ∈ items, ∀ x y, Elsewhere w.tables j.id x y → Aside i.id x y :=
    fun i hi x y h => Elsewhere.aside h (hrows i hi).1 (hrows i hi).2.1
  have hnodup : (items.map Item.id).Nodup := hitems ▸ Tables.pendingItems_nodup hw _ _
  have hstill : u.tables.statusOf j.id = some (.known .running) :=
    (Confined.statusOf hu (not_not_intro rfl)).trans hrunning
  have hpending : ArePending items u := by
    intro i hi
    obtain ⟨hmem, -, hstatus⟩ := hrows i hi
    have hbefore : IsIn i.id .pending w := by
      rw [IsIn, Tables.itemStatus_of_mem hw hmem, hstatus]
    exact IsIn.stable .pending hbefore (haside i hi w u hu)
  have hdrives : WorksOn around (Elsewhere w.tables j.id) items (e.driveItems j items).run
      (fun result v => (∃ report, result = .ok report ∧ AreSettled around items report v) ∧
        v.tables.statusOf j.id = some (.known .running)) u :=
    (worksOn_driveItems hmild hnodup haside hpending).keeping
      (fun x y hx h => (Confined.statusOf h (not_not_intro rfl)).trans hx)
      (fun x y hx h => (Confined.statusOf h id).trans hx) hstill
  refine hdrives.mono (fun _ _ h => h) (fun _ _ h => h.mono (fun _ => id) fun _ => False.elim) ?_
  rintro result v ⟨⟨report, rfl, hsettled⟩, hrunning⟩
  subst hitems
  exact hsettled.isDriven hbatch hrunning

/-- A running job is taken one batch further, or it is concluded. -/
theorem drives_drive (hmild : around.IsMild) (hw : w.tables.IsWellFormed)
    (hrunning : w.tables.statusOf j.id = some (.known .running)) :
    (e.drive j).run.Meets (tellingTurns around) (Elsewhere w.tables j.id)
      (Confined (· ∈ (w.tables.pendingItems j.id e.settings.batchSize).map Item.id) (· = j.id))
      (IsDriven e around w.tables j.id) w := by
  have hstable : Stable (Elsewhere w.tables j.id) (Elsewhere w.tables j.id w) := Confined.stable w
  refine Meets.store hstable (Confined.refl _ _ w) ?_ fun failure x y _ hacts => ?_
  · intro items x y hx hacts
    have hstep : Confined (fun _ => False) (fun _ => False) x y :=
      .of_acts hacts.1 hacts.2.2 trivial
    have hy : Elsewhere w.tables j.id w y :=
      hx.trans (hstep.mono (fun _ => False.elim) fun _ => False.elim)
    obtain ⟨now, hreply, -⟩ := Surroundings.acts_ok hacts.2.2
    obtain rfl : items = w.tables.pendingItems j.id e.settings.batchSize :=
      hreply.trans (Elsewhere.pendingItems hx)
    refine ⟨hstep.mono (fun _ => False.elim) fun _ => False.elim, ?_⟩
    split
    · rename_i hempty
      exact Meets.confined (Engine.asks_finish trivial fun _ _ => rfl)
        (drives_finish hmild (List.isEmpty_iff.1 hempty) hrunning hy)
    · rename_i hbatch
      exact drives_batch hmild hw hrunning rfl (by simpa using hbatch) hy
  · obtain ⟨now, hreply, -⟩ := served hmild hacts (by simp)
    cases hreply

/-- The items of the next batches of all running jobs. -/
def Engine.drawn (e : Engine) (t : Tables) : List Item :=
  (t.jobsIn .running).flatMap fun j => t.pendingItems j.id e.settings.batchSize

/-- All jobs that were running in some tables were driven from one scene to another, and nothing
else was worked on. -/
structure AreDriven (e : Engine) (around : Surroundings) (t : Tables) (w : Scene)
    (result : Except String TickReport) (v : Scene) : Prop where
  result : result = .ok (.sum ((t.jobsIn .running).map fun j => e.driven t v j.id))
  drives : ∀ j ∈ t.jobsIn .running, IsDriven e around t j.id (.ok (e.driven t v j.id)) v
  confined : Confined (· ∈ (e.drawn t).map Item.id) (· ∈ (t.jobsIn .running).map Job.id) w v

theorem Tables.mem_jobsIn {status : JobStatus} :
    j ∈ t.jobsIn status ↔ j ∈ t.jobs ∧ j.status = .known status := by
  simp [jobsIn, List.mem_mergeSort, List.mem_filter]

theorem Tables.statusOf_of_mem (ht : t.IsWellFormed) (hj : j ∈ t.jobs) :
    t.statusOf j.id = some j.status := by
  rw [statusOf, (job?_eq_some_iff ht).2 ⟨hj, rfl⟩, Option.map_some]

theorem Tables.mem_running (ht : t.IsWellFormed) :
    job ∈ (t.jobsIn .running).map Job.id ↔ t.statusOf job = some (.known .running) := by
  constructor
  · intro hmem
    obtain ⟨j, hj, rfl⟩ := List.mem_map.1 hmem
    obtain ⟨hmem, hstatus⟩ := mem_jobsIn.1 hj
    rw [statusOf_of_mem ht hmem, hstatus]
  · intro hstatus
    obtain ⟨j, hj, hknown⟩ := Option.map_eq_some_iff.1 hstatus
    obtain ⟨hmem, rfl⟩ := (job?_eq_some_iff ht).1 hj
    exact List.mem_map_of_mem (mem_jobsIn.2 ⟨hmem, hknown⟩)

/-- Work on the batch of one job is elsewhere for another. -/
theorem elsewhere_of_batch {other : Uuid} {limit : Int} (ht : t.IsWellFormed) (hne : job ≠ other)
    (h : Confined (· ∈ (t.pendingItems job limit).map Item.id) (· = job) u v) :
    Elsewhere t other u v := by
  refine h.mono (fun id hid i hi hsame => ?_) fun id hid => hid ▸ hne
  obtain ⟨k, hk, rfl⟩ := List.mem_map.1 hid
  obtain ⟨hmem, hjob, -⟩ := Tables.mem_pendingItems hk
  obtain rfl := List.inj_on_of_nodup_map ht.items_nodup hi hmem hsame
  rwa [hjob]

/-- An engine that is not to stop begins with all jobs. -/
theorem meets_unlessStopping (hgoing : ¬ around .stopping true) {P : Scene → Prop}
    (hP : Stable rely P)
    (hstep : ∀ answer u v, tellingTurns around .stopping answer u v → P u → P v) (jobs : List Job)
    (hw : P w) :
    (Engine.unlessStopping jobs).Meets (tellingTurns around) rely (fun _ _ => True)
      (fun begun v => begun = jobs ∧ P v) w := by
  have hstable : ∀ begun jobs : List Job, Stable rely fun v => begun = jobs ∧ P v :=
    fun _ _ => (stable_const _ _).and hP
  induction jobs generalizing w with
  | nil => exact Meets.pure (hstable _ _) ⟨rfl, hw⟩
  | cons j rest ih =>
      apply Meets.request hP hw
      intro stopping u v hu hacts
      refine ⟨trivial, ?_⟩
      cases stopping with
      | true => exact absurd hacts.2.2.1 hgoing
      | false =>
          apply Meets.bind
          apply (ih (hstep _ _ _ hacts hu)).weaken
          rintro begun x ⟨rfl, hx⟩
          exact Meets.pure (hstable _ _) ⟨rfl, hx⟩

/-- Jobs that are told apart are driven side by side. -/
theorem meets_forEach_drive (hmild : around.IsMild) (hw : w.tables.IsWellFormed) (jobs : List Job)
    (hjobs : jobs = w.tables.jobsIn .running) :
    (Program.forEach .free jobs fun j => (e.drive j).run).Meets (tellingTurns around)
      (fun _ _ => False) (fun _ _ => True)
      (fun results v =>
        List.Forall₂ (fun j result => IsDriven e around w.tables j.id result v) jobs results ∧
          Confined (· ∈ (e.drawn w.tables).map Item.id)
            (· ∈ (w.tables.jobsIn .running).map Job.id) w v) w := by
  have hnodup : (jobs.map Job.id).Nodup := by
    rw [hjobs]
    exact Tables.jobsIn_nodup hw .running
  have hrunning : ∀ j ∈ jobs, w.tables.statusOf j.id = some (.known .running) := by
    rw [hjobs]
    intro j hj
    obtain ⟨hmem, hstatus⟩ := Tables.mem_jobsIn.1 hj
    rw [Tables.statusOf_of_mem hw hmem, hstatus]
  refine Meets.forEach_apart
    ((List.pairwise_map.1 hnodup).imp fun hne u v =>
      ⟨elsewhere_of_batch hw hne, elsewhere_of_batch hw hne.symm⟩)
    (fun _ _ _ _ => False.elim) (fun _ _ _ _ _ => trivial)
    (fun j hj => drives_drive hmild hw (hrunning j hj)) (fun _ _ _ _ _ _ => False.elim)
    (Confined.refl _ _ w) (stable_never _) fun j hj u v hu hstep => hu.trans ?_
  rw [hjobs] at hj
  refine hstep.mono (fun id hid => ?_) fun id hid => hid ▸ List.mem_map_of_mem hj
  obtain ⟨i, hi, rfl⟩ := List.mem_map.1 hid
  exact List.mem_map_of_mem (List.mem_flatMap.2 ⟨j, hj, hi⟩)

/-- Since some scene the tables have only been read. -/
def IsUntouched (w s : Scene) : Prop :=
  s.tables = w.tables ∧ Confined (fun _ => False) (fun _ => False) w s

/-- An engine that is not to stop drives all running jobs. -/
theorem drives_driveAll (hmild : around.IsMild) (hgoing : ¬ around .stopping true)
    (hw : w.tables.IsWellFormed) :
    e.driveAll.run.Meets (tellingTurns around) (fun _ _ => False) (fun _ _ => True)
      (AreDriven e around w.tables w) w := by
  refine meets_served hmild (by simp) (stable_never (· = w)) rfl ?_
  rintro now x y rfl hacts htables
  have hy : IsUntouched x y := ⟨htables, .of_acts hacts.1 hacts.2.2 trivial⟩
  have hstep : ∀ answer u v, tellingTurns around .stopping answer u v →
      IsUntouched x u → IsUntouched x v := by
    rintro answer u v hacts ⟨htables, hu⟩
    exact ⟨hacts.2.2.2.1.1.trans htables, hu.trans (.of_acts hacts.1 hacts.2.2 trivial)⟩
  apply Meets.lift
  apply (meets_unlessStopping hgoing (stable_never (IsUntouched x)) hstep _ hy).weaken
  rintro begun z ⟨rfl, hz, hbefore⟩
  rw [← hz] at hw
  have hjobs : (x.tables.serve now (.jobsIn .running)).1 = z.tables.jobsIn .running := by
    rw [hz]
    rfl
  apply Meets.lift
  apply (meets_forEach_drive hmild hw _ hjobs).weaken
  rintro results v ⟨hresults, hconfined⟩
  rw [hjobs] at hresults
  rw [hz] at hresults hconfined
  have hall : results = (x.tables.jobsIn .running).map fun j => .ok (e.driven x.tables v j.id) := by
    rw [← List.forall₂_eq_eq_eq, List.forall₂_map_right_iff]
    exact (hresults.imp fun _ _ h => h.result).flip
  subst hall
  refine Meets.pure (stable_never _) ⟨?_, fun j hj => ?_, ?_⟩
  · simp [Function.comp_def, Except.toOption]
  · exact List.forall₂_same.1 (List.forall₂_map_right_iff.1 hresults) j hj
  · exact (hbefore.mono (fun _ => False.elim) fun _ => False.elim).trans hconfined

end Mailroom
