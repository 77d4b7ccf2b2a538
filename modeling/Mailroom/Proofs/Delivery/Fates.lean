import Mathlib.Algebra.Ring.Nat
import Mailroom.Proofs.Delivery.Confinement

/-!
What becomes of an item that is worked on.  Main statements: an item that was pending is queued or
failed when it has been recorded or dispatched, or it is pending still though the engine keeps in
mind that a server took it; and the outcome that is reported is the one that its row shows.
-/

namespace Mailroom

open Engine (ItemOutcome)
open Program (Asks Meets)

namespace TickReport

theorem sum_eq (rs : List TickReport) :
    sum rs = ⟨(rs.map promoted).sum, (rs.map reconciled).sum, (rs.map queued).sum,
      (rs.map failed).sum, (rs.map unrecorded).sum, (rs.map finished).sum⟩ := by
  suffices hfold : ∀ r : TickReport, rs.foldl add r =
      r.add ⟨(rs.map promoted).sum, (rs.map reconciled).sum, (rs.map queued).sum,
        (rs.map failed).sum, (rs.map unrecorded).sum, (rs.map finished).sum⟩ by
    simp [sum, hfold, add]
  induction rs with
  | nil => simp [add]
  | cons s rest ih =>
      intro r
      rw [List.foldl_cons, ih]
      simp [add, Nat.add_assoc]

/-- The report on items that came to some outcomes. -/
def ofOutcomes (outcomes : List ItemOutcome) : TickReport where
  queued := outcomes.count .queued
  failed := outcomes.count .failed
  unrecorded := outcomes.count .unrecorded

theorem ofOutcomes_append (first second : List ItemOutcome) :
    ofOutcomes (first ++ second) = (ofOutcomes first).add (ofOutcomes second) := by
  simp [ofOutcomes, add]

theorem ofOutcomes_cons (outcome : ItemOutcome) (rest : List ItemOutcome) :
    ofOutcomes (outcome :: rest) = outcome.report.add (ofOutcomes rest) := by
  cases outcome <;> simp [ofOutcomes, add, ItemOutcome.report, Nat.add_comm]

theorem ofOutcomes_perm {first second : List ItemOutcome} (h : first.Perm second) :
    ofOutcomes first = ofOutcomes second := by
  simp [ofOutcomes, h.count_eq]

theorem sum_report (outcomes : List ItemOutcome) :
    sum (outcomes.map ItemOutcome.report) = ofOutcomes outcomes := by
  rw [sum_eq]
  induction outcomes with
  | nil => rfl
  | cons outcome rest ih =>
      rw [ofOutcomes_cons, ← ih]
      simp [add]

end TickReport

namespace Tables

variable {t : Tables} {item : Uuid} {status source : ItemStatus} {now : Timestamp}

theorem itemStatus_eq_some_iff {stored : Stored ItemStatus} :
    t.itemStatus item = some stored ↔ ∃ i, t.item? item = some i ∧ i.status = stored :=
  Option.map_eq_some_iff

theorem itemStatus_of_mem (ht : t.IsWellFormed) {i : Item} (hi : i ∈ t.items) :
    t.itemStatus i.id = some i.status :=
  itemStatus_eq_some_iff.2 ⟨i, (item?_eq_some_iff ht).2 ⟨hi, rfl⟩, rfl⟩

/-- An item that is in the status it is moved from is found. -/
theorem moveItem_fst (h : t.itemStatus item = some (.known source)) (change : Item → Item) :
    (t.moveItem item source change now).1 = true := by
  obtain ⟨i, hi, hstatus⟩ := itemStatus_eq_some_iff.1 h
  have hid : i.id = item := by simpa using List.find?_some hi
  have hany : t.items.any (isItemIn item source) = true :=
    List.any_eq_true.2 ⟨i, List.mem_of_find?_eq_some hi, by simp [isItemIn, hid, hstatus]⟩
  simp [moveItem, hany]

/-- A call makes of the row of an item what it makes of its status. -/
theorem itemStatus_serve (ht : t.IsWellFormed) (c : StoreCall) {before after : Stored ItemStatus}
    (h : t.itemStatus item = some before)
    (hrow : ∀ i, i.id = item → i.status = before → (c.onItem now i).status = after) :
    (t.serve now c).2.itemStatus item = some after := by
  obtain ⟨i, hi, hstatus⟩ := itemStatus_eq_some_iff.1 h
  obtain ⟨-, hid⟩ := (item?_eq_some_iff ht).1 hi
  exact itemStatus_eq_some_iff.2 ⟨_, item?_serve_of_some now ht c hi, hrow i hid hstatus⟩

end Tables

/-- The store fails at nothing but the record of what a server took, if at all. -/
def Surroundings.IsMild (around : Surroundings) : Prop :=
  ∀ e answer, around e answer → Surroundings.mild e answer

/-- What became of an item: it is queued, or it failed, or a server took it and it is pending still
since the store did not record that. -/
def IsFate (around : Surroundings) (item : Uuid) : ItemOutcome → Scene → Prop
  | .queued, s => s.tables.itemStatus item = some (.known .queued)
  | .failed, s => s.tables.itemStatus item = some (.known .failed)
  | .unrecorded, s =>
      s.tables.itemStatus item = some (.known .pending) ∧
        (s.accepted.lookup item).isSome = true ∧
          ∃ remoteId failure, around (.store (.queueItem item remoteId)) (.error failure)

/-- The outcome that the row of an item shows. -/
def Scene.outcomeOf (s : Scene) (item : Uuid) : ItemOutcome :=
  match s.tables.itemStatus item with
  | some (.known .queued) => .queued
  | some (.known .failed) => .failed
  | _ => .unrecorded

/-- A step leaves an item alone. -/
abbrev Aside (item : Uuid) : Scene → Scene → Prop := Confined (· ≠ item) fun _ => True

theorem Confined.aside {worked moved : Uuid → Prop} {u v : Scene} {item : Uuid}
    (h : Confined worked moved u v) (hout : ¬ worked item) : Aside item u v :=
  h.mono (fun _ hid heq => hout (heq ▸ hid)) fun _ _ => trivial

section

variable {e : Engine} {around : Surroundings} {item : Uuid} {outcome : ItemOutcome}
  {u v w : Scene} {α β : Type}

theorem IsFate.outcomeOf_eq {s : Scene} (h : IsFate around item outcome s) :
    s.outcomeOf item = outcome := by
  cases outcome with
  | queued | failed =>
      rw [IsFate] at h
      simp [Scene.outcomeOf, h]
  | unrecorded => simp [Scene.outcomeOf, h.1]

theorem IsFate.stable (outcome : ItemOutcome) :
    Stable (Aside item) (IsFate around item outcome) := by
  intro u v hu hstep
  have hstatus : v.tables.itemStatus item = u.tables.itemStatus item :=
    hstep.itemStatus (not_not_intro rfl)
  have hheld := hstep.held item (not_not_intro rfl)
  cases outcome with
  | queued | failed =>
      rw [IsFate, hstatus]
      exact hu
  | unrecorded =>
      rw [IsFate, hstatus, hheld]
      exact hu

def IsIn (item : Uuid) (status : ItemStatus) (s : Scene) : Prop :=
  s.tables.itemStatus item = some (.known status)

theorem IsIn.stable (status : ItemStatus) : Stable (Aside item) (IsIn item status) := by
  intro u v hu hstep
  rw [IsIn, hstep.itemStatus (not_not_intro rfl)]
  exact hu

theorem served (hmild : around.IsMild) {call : StoreCall} {answer : call.Answer}
    (hacts : tellingTurns around (.store call) answer u v)
    (hcall : ∀ id remoteId, call ≠ .queueItem id remoteId) :
    ∃ now, answer = .ok (u.tables.serve now call).1 ∧ v.tables = (u.tables.serve now call).2 := by
  cases answer with
  | ok reply =>
      obtain ⟨now, rfl, htables⟩ := Surroundings.acts_ok hacts.2.2
      exact ⟨now, rfl, htables⟩
  | error failure =>
      obtain ⟨id, remoteId, hqueue⟩ := hmild _ _ hacts.2.2.1
      exact absurd hqueue (hcall id remoteId)

/-- A call to the store that is served. -/
theorem meets_served {ε : Type} [OfFailure ε] (hmild : around.IsMild) {call : StoreCall}
    {k : call.Reply → Service ε β} {rely : Scene → Scene → Prop} {P : Scene → Prop}
    {post : Except ε β → Scene → Prop} (hcall : ∀ id remoteId, call ≠ .queueItem id remoteId)
    (hP : Stable rely P) (hw : P w)
    (hnext : ∀ now u v, P u →
      tellingTurns around (.store call) (.ok (u.tables.serve now call).1) u v →
      v.tables = (u.tables.serve now call).2 →
        (k (u.tables.serve now call).1).run.Meets (tellingTurns around) rely (fun _ _ => True)
          post v) :
    (Service.store call >>= k).run.Meets (tellingTurns around) rely (fun _ _ => True) post w := by
  refine Meets.store hP hw ?_ fun failure u v hu hacts => ?_
  · intro reply u v hu hacts
    obtain ⟨now, hreply, htables⟩ := served hmild hacts hcall
    obtain rfl := Except.ok.inj hreply
    exact ⟨trivial, hnext now u v hu hacts htables⟩
  · obtain ⟨now, hreply, -⟩ := served hmild hacts hcall
    cases hreply

/-- A program of the engine that works on an item while the others leave it alone. -/
abbrev Fares (around : Surroundings) (item : Uuid) (p : Program α) (post : α → Scene → Prop)
    (w : Scene) : Prop :=
  p.Meets (tellingTurns around) (Aside item) (fun _ _ => True) post w

/-- What comes of writing the queued status of an item. -/
def IsQueuedOr (around : Surroundings) (item : Uuid) : Except Failure Bool → Scene → Prop
  | .ok found, s => found = true ∧ IsIn item .queued s
  | .error _, s => IsIn item .pending s ∧
      ∃ remoteId failure, around (.store (.queueItem item remoteId)) (.error failure)

theorem IsQueuedOr.stable (result : Except Failure Bool) :
    Stable (Aside item) (IsQueuedOr around item result) := by
  cases result with
  | ok found => exact (stable_const _ _).and (IsIn.stable .queued)
  | error failure => exact (IsIn.stable .pending).and (stable_const _ _)

theorem isQueuedOr_of_acts {remoteId : String} {answer : (StoreCall.queueItem item remoteId).Answer}
    (hu : IsIn item .pending u)
    (hacts : tellingTurns around (.store (.queueItem item remoteId)) answer u v) :
    IsQueuedOr around item answer v := by
  cases answer with
  | ok found =>
      obtain ⟨now, rfl, htables⟩ := Surroundings.acts_ok hacts.2.2
      refine ⟨Tables.moveItem_fst hu _, ?_⟩
      rw [IsIn, htables]
      apply Tables.itemStatus_serve hacts.1 _ hu
      intro i hid hstatus
      simp [StoreCall.onItem, Tables.isItemIn, hid, hstatus]
  | error failure =>
      refine ⟨?_, remoteId, failure, hacts.2.2.1⟩
      rw [IsIn, Surroundings.acts_error hacts.2.2]
      exact hu

theorem fares_writeQueued (remoteId : String) (more attempt : Nat) (hw : IsIn item .pending w) :
    Fares around item (Engine.writeQueued item remoteId more attempt) (IsQueuedOr around item)
      w := by
  induction more generalizing attempt w with
  | zero =>
      intro u hu answer v hacts
      have hv := isQueuedOr_of_acts ((IsIn.stable .pending).many hw hu) hacts
      exact ⟨trivial, Meets.pure (IsQueuedOr.stable answer) hv⟩
  | succ more ih =>
      apply Meets.request (IsIn.stable .pending) hw
      intro answer u v hu hacts
      have hv := isQueuedOr_of_acts hu hacts
      refine ⟨trivial, ?_⟩
      cases answer with
      | ok found => exact Meets.pure (IsQueuedOr.stable _) hv
      | error failure =>
          apply Meets.request (IsIn.stable .pending) hv.1
          intro _ x y hx hacts
          refine ⟨trivial, ih (attempt + 1) ?_⟩
          rw [IsIn, hacts.2.2.2.1.1]
          exact hx

/-- What a server took is recorded, or kept in mind. -/
theorem fares_recordQueued (remoteId : String) (hw : IsIn item .pending w) :
    Fares around item (Engine.recordQueued item remoteId) (IsFate around item) w := by
  apply Meets.bind
  apply (fares_writeQueued remoteId _ _ hw).weaken
  intro result u hu
  cases result with
  | ok found =>
      obtain ⟨rfl, hqueued⟩ := hu
      apply Meets.request (IsIn.stable .queued) hqueued
      intro answer x v hx hacts
      refine ⟨trivial, Meets.pure (IsFate.stable .queued) ?_⟩
      change IsIn item .queued v
      rw [IsIn, hacts.2.2.2.1.1]
      exact hx
  | error failure =>
      obtain ⟨hpending, hfails⟩ := hu
      apply Meets.request (IsIn.stable .pending) hpending
      intro answer x v hx hacts
      obtain ⟨htables, haccepted⟩ := hacts.2.2.2.1
      refine ⟨trivial, Meets.pure (IsFate.stable .unrecorded) ⟨?_, ?_, hfails⟩⟩
      · rw [htables]
        exact hx
      · rw [haccepted, Engine.lookup_keep, if_pos rfl]
        rfl

/-- Messages of an item may be sent and kept in mind, and nothing may be written. -/
def Scope.mailing (item : Uuid) : Scope where
  items _ _ := False
  mail id := id = item
  stamps _ := False
  renews _ := False
  moves _ _ _ := False
  counts _ := False
  creates _ := False

theorem isIn_of_acts {effect : Effect} {answer : effect.Answer} {s : Scope} {status : ItemStatus}
    (hacts : tellingTurns around effect answer u v) (hwithin : effect.Within s)
    (hitems : ∀ source, ¬ s.items item source) (hrenews : ∀ job, ¬ s.renews job)
    (hu : IsIn item status u) : IsIn item status v := by
  rcases Surroundings.acts_tables hacts.2.2 with htables | ⟨call, now, rfl | rfl, htables⟩
  · rwa [IsIn, htables]
  · rw [IsIn, htables]
    apply Tables.itemStatus_serve hacts.1 call hu
    rintro i rfl hstatus
    rw [StoreCall.status_onItem hwithin hitems (hrenews _), hstatus]
  · exact absurd hwithin id

/-- A pending item is sent and recorded, or it fails. -/
theorem fares_dispatchItem (hmild : around.IsMild) (context : Except String Engine.JobContext)
    {i : Item} (hw : IsIn i.id .pending w) :
    Fares around i.id (e.dispatchItem context i) (IsFate around i.id) w := by
  have hattempt : Fares around i.id (e.attempt context i) (fun _ => IsIn i.id .pending) w := by
    apply Meets.keep (Engine.asks_attempt e context (s := .mailing i.id) rfl) (IsIn.stable .pending)
      _ hw
    intro effect answer u v hwithin hu hacts
    exact ⟨trivial, isIn_of_acts hacts hwithin (fun _ => id) (fun _ => id) hu⟩
  apply Meets.bind
  apply hattempt.weaken
  intro sent u hu
  cases sent with
  | ok remoteId => exact fares_recordQueued remoteId hu
  | error text =>
      apply Meets.request (IsIn.stable .pending) hu
      intro answer x v hx hacts
      obtain ⟨now, -, htables⟩ := served hmild hacts (by simp)
      refine ⟨trivial, Meets.pure (IsFate.stable .failed) ?_⟩
      rw [IsFate, htables]
      apply Tables.itemStatus_serve hacts.1 _ hx
      intro k hid hstatus
      simp [StoreCall.onItem, Tables.isItemIn, hid, hstatus]

/-- Tasks side by side, each of which works on an item of its own. -/
theorem meets_forEach_items {admission : Admission} {items : List Item} {task : Item → Program β}
    {posts : Item → β → Scene → Prop} {rely : Scene → Scene → Prop}
    (hnodup : (items.map Item.id).Nodup) (hrely : ∀ i ∈ items, ∀ u v, rely u v → Aside i.id u v)
    (hasks : ∀ i ∈ items, (task i).Asks (Effect.Within (.confined (· = i.id) fun _ => False)))
    (htasks : ∀ i ∈ items, Fares around i.id (task i) (posts i) w)
    (hposts : ∀ i ∈ items, ∀ b, Stable (Aside i.id) (posts i b)) :
    (Program.forEach admission items task).Meets (tellingTurns around) rely (fun _ _ => True)
      (fun results v => List.Forall₂ (fun i b => posts i b v) items results) w := by
  have hapart : items.Pairwise fun x y => ∀ u v,
      (Confined (· = x.id) (fun _ => False) u v → Aside y.id u v) ∧
        (Confined (· = y.id) (fun _ => False) u v → Aside x.id u v) := by
    refine (List.pairwise_map.1 hnodup).imp fun {x y} hne u v => ⟨fun h => ?_, fun h => ?_⟩
    · exact h.aside fun heq => hne heq.symm
    · exact h.aside hne
  have hresults : (Program.forEach admission items task).Meets (tellingTurns around) rely
      (fun _ _ => True)
      (fun results v => List.Forall₂ (fun i b => posts i b v) items results ∧ True) w :=
    Meets.forEach_apart hapart hrely (fun _ _ _ _ _ => trivial)
      (fun i hi => Meets.confined (hasks i hi) (htasks i hi))
      (fun i hi b u v hu hstep => hposts i hi b hu (hrely i hi u v hstep)) trivial
      (stable_const _ _) fun _ _ => stable_const _ _
  exact hresults.weaken fun _ _ h => h.1

end

end Mailroom
