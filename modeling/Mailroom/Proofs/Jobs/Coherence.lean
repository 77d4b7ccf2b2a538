import Mailroom.Proofs.Jobs.Counters

/-!
The columns of an item.  A server's identifier, an error and the instant of a check go with the
status of the item, though every write to its row fills or clears some of them only.  Main
statement: whatever operators do meanwhile, all rows are coherent, and none that waits for news of
its server is passed over by those who look for it.
-/

namespace Mailroom

open Program (Asks Meets)

variable {e : Engine} {around : Surroundings} {actor : Actor} {effect : Effect}
  {answer : effect.Answer} {s : Scope} {ids : List Uuid} {u v w : Scene} {i : Item}
  {now : Timestamp}

/-- The columns of an item go with its status. -/
inductive Item.IsCoherent (i : Item) : Prop where
  | pending (hstatus : i.status = .known .pending) (hremote : i.remoteId = none)
      (herror : i.lastError = none) (hchecked : i.checkedAt = none)
  | queued (hstatus : i.status = .known .queued) (hremote : i.remoteId.isSome = true)
      (herror : i.lastError = none)
  | sent (hstatus : i.status = .known .sent) (hremote : i.remoteId.isSome = true)
      (hchecked : i.checkedAt.isSome = true) (herror : i.lastError = none)
  | failed (hstatus : i.status = .known .failed) (herror : i.lastError.isSome = true)
      (hremote : i.checkedAt.isSome = true → i.remoteId.isSome = true)

def AllCoherent (s : Scene) : Prop := ∀ i ∈ s.tables.items, i.IsCoherent

namespace Item.IsCoherent

theorem remoteId_of_queued (hi : i.IsCoherent) (hqueued : i.status = .known .queued) :
    i.remoteId.isSome = true := by
  cases hi with
  | queued _ hremote _ => exact hremote
  | pending hstatus | sent hstatus | failed hstatus =>
      rw [hqueued] at hstatus
      cases hstatus

/-- Only an item that a server took has been checked. -/
theorem remoteId_of_checked (hi : i.IsCoherent) (hchecked : i.checkedAt.isSome = true) :
    i.remoteId.isSome = true := by
  cases hi with
  | pending _ _ _ hnone => simp [hnone] at hchecked
  | queued _ hremote _ => exact hremote
  | sent _ hremote _ _ => exact hremote
  | failed _ _ hremote => exact hremote hchecked

/-- An item that a server took may be stamped. -/
theorem stamp (hi : i.IsCoherent) (hremote : i.remoteId.isSome = true) :
    Item.IsCoherent { i with checkedAt := some now } := by
  cases hi with
  | pending _ hnone _ _ => simp [hnone] at hremote
  | queued hstatus _ herror => exact .queued hstatus hremote herror
  | sent hstatus _ _ herror => exact .sent hstatus hremote rfl herror
  | failed hstatus herror _ => exact .failed hstatus herror fun _ => hremote

theorem confirm (hi : i.IsCoherent) (hqueued : i.status = .known .queued)
    (hchecked : i.checkedAt.isSome = true) :
    Item.IsCoherent { i with status := .known .sent, updatedAt := now } := by
  cases hi with
  | queued _ hremote herror => exact .sent rfl hremote hchecked herror
  | pending hstatus | sent hstatus | failed hstatus =>
      rw [hqueued] at hstatus
      cases hstatus

/-- A call keeps an item coherent if it stamps it only when a server took it, and confirms it only
when it was stamped. -/
theorem onItem {c : StoreCall} (hi : i.IsCoherent)
    (hstamp : ∀ ids, c = .checkItems ids → i.id ∈ ids → i.remoteId.isSome = true)
    (hconfirm : c = .confirmItem i.id → i.status = .known .queued →
      i.checkedAt.isSome = true) : (c.onItem now i).IsCoherent := by
  cases c with
  | checkItems ids =>
      simp only [StoreCall.onItem]
      split
      · rename_i hmem
        exact hi.stamp (hstamp ids rfl (by simpa using hmem))
      · exact hi
  | queueItem id remoteId =>
      simp only [StoreCall.onItem]
      split
      · exact .queued rfl rfl rfl
      · exact hi
  | failItem id source error =>
      simp only [StoreCall.onItem]
      split
      · exact .failed rfl rfl hi.remoteId_of_checked
      · exact hi
  | confirmItem id =>
      simp only [StoreCall.onItem]
      split
      · rename_i hin
        simp only [Tables.isItemIn, Bool.and_eq_true, beq_iff_eq] at hin
        obtain ⟨rfl, hqueued⟩ := hin
        exact hi.confirm hqueued (hconfirm rfl hqueued)
      · exact hi
  | resetFailed job =>
      simp only [StoreCall.onItem]
      split
      · exact .pending rfl rfl rfl rfl
      · exact hi
  | _ => exact hi

end Item.IsCoherent

namespace Tables

variable {t : Tables}

theorem isCoherent_of_mem_newItems {job : Uuid} {serial : Nat} {ns : List NewItem}
    (hi : i ∈ newItems job now serial ns) : i.IsCoherent := by
  induction ns generalizing serial with
  | nil => cases hi
  | cons n rest ih =>
      rcases List.mem_cons.1 hi with rfl | hi
      · exact .pending rfl rfl rfl rfl
      · exact ih hi

theorem isCoherent_of_mem_callItems {c : StoreCall} (hi : i ∈ c.newItems t now) :
    i.IsCoherent := by
  cases c with
  | createJob n items => exact isCoherent_of_mem_newItems hi
  | _ => cases hi

/-- Every queued item that has its server's identifier is listed, if the list is long enough. -/
theorem mem_queuedItems_of_le {limit : Int} (hi : i ∈ t.items)
    (hqueued : i.status = .known .queued) (hremote : i.remoteId.isSome = true)
    (hlimit : (t.items.countP isAwaiting : Int) ≤ limit) :
    i ∈ t.queuedItems limit := by
  have hlength : ((t.items.filter isAwaiting).mergeSort checkedBefore).length ≤ limit.toNat := by
    rw [List.length_mergeSort, ← List.countP_eq_length_filter]
    omega
  rw [queuedItems, List.take_of_length_le hlength, List.mem_mergeSort, List.mem_filter]
  exact ⟨hi, by simp [isAwaiting, hqueued, hremote]⟩

end Tables

/-- A queued item stays as it is unless it is moved or stamped. -/
theorem StoreCall.onItem_of_queued {c : StoreCall} (hwithin : (Effect.store c).Within s)
    (hitems : ¬ s.items i.id .queued) (hstamps : ¬ s.stamps i.id)
    (hqueued : i.status = .known .queued) : c.onItem now i = i := by
  cases c with
  | checkItems ids =>
      have hnot : i.id ∉ ids := fun hmem => hstamps (hwithin _ hmem)
      simp [onItem, hnot]
  | queueItem id remoteId => simp [onItem, Tables.isItemIn, hqueued]
  | failItem id source error =>
      have hnot : Tables.isItemIn id source i = false := by
        simp only [Tables.isItemIn, Bool.and_eq_false_imp, beq_iff_eq]
        rintro rfl
        rw [hqueued, beq_eq_false_iff_ne]
        rintro ⟨⟩
        exact hitems hwithin
      simp [onItem, hnot]
  | confirmItem id =>
      have hnot : i.id ≠ id := by
        rintro rfl
        exact hitems hwithin
      simp [onItem, Tables.isItemIn, hnot]
  | resetFailed job => simp [onItem, Tables.isFailure, hqueued]
  | _ => rfl

/-- Nothing makes an item queued but the record that a server took it. -/
theorem StoreCall.onItem_of_becomes_queued {c : StoreCall} (hwithin : (Effect.store c).Within s)
    (hitems : ¬ s.items i.id .pending) (hstamps : ¬ s.stamps i.id)
    (hqueued : (c.onItem now i).status = .known .queued) : c.onItem now i = i := by
  cases c with
  | checkItems ids =>
      have hnot : i.id ∉ ids := fun hmem => hstamps (hwithin _ hmem)
      simp [onItem, hnot]
  | queueItem id remoteId =>
      have hnot : i.id ≠ id := by
        rintro rfl
        exact hitems hwithin
      simp [onItem, Tables.isItemIn, hnot]
  | failItem | confirmItem | resetFailed =>
      simp only [onItem] at hqueued ⊢
      split at hqueued
      · cases hqueued
      · rename_i hnot
        exact if_neg hnot
  | _ => rfl

/-- A request within a scope keeps all items coherent, if what it may stamp is taken and what it may
confirm is stamped. -/
theorem AllCoherent.of_acts (hall : AllCoherent u) (hu : u.tables.IsWellFormed)
    (hacts : around.acts actor effect answer u v) (hwithin : effect.Within s)
    (hstamps : ∀ i ∈ u.tables.items, s.stamps i.id → i.remoteId.isSome = true)
    (hitems : ∀ i ∈ u.tables.items, s.items i.id .queued → i.status = .known .queued →
      i.checkedAt.isSome = true) : AllCoherent v := by
  rcases Surroundings.acts_tables hacts with htables | ⟨call, now, rfl | rfl, htables⟩
  · rwa [AllCoherent, htables]
  · intro i hi
    rw [htables, Tables.items_serve hu, List.mem_append, List.mem_map] at hi
    rcases hi with ⟨k, hk, rfl⟩ | hi
    · apply (hall k hk).onItem
      · rintro ids rfl hmem
        exact hstamps k hk (hwithin _ hmem)
      · rintro rfl
        exact hitems k hk hwithin
    · exact Tables.isCoherent_of_mem_callItems hi
  · exact absurd hwithin id

/-- An item that is queued was so before, unless pending items are moved or items are stamped. -/
theorem queued_before (hu : u.tables.IsWellFormed) (hacts : around.acts actor effect answer u v)
    (hwithin : effect.Within s) (hitems : ¬ s.items i.id .pending) (hstamps : ¬ s.stamps i.id)
    (hi : i ∈ v.tables.items) (hqueued : i.status = .known .queued) : i ∈ u.tables.items := by
  rcases Surroundings.acts_tables hacts with htables | ⟨call, now, rfl | rfl, htables⟩
  · rwa [← htables]
  · rw [htables, Tables.items_serve hu, List.mem_append, List.mem_map] at hi
    rcases hi with ⟨k, hk, rfl⟩ | hi
    · rw [StoreCall.onItem_id] at hitems hstamps
      rwa [StoreCall.onItem_of_becomes_queued hwithin hitems hstamps hqueued]
    · rw [(Tables.id_of_mem_callItems hi).2.1] at hqueued
      cases hqueued
  · exact absurd hwithin id

theorem queued_after (hu : u.tables.IsWellFormed) (hacts : around.acts actor effect answer u v)
    (hwithin : effect.Within s) (hitems : ¬ s.items i.id .queued) (hstamps : ¬ s.stamps i.id)
    (hi : i ∈ u.tables.items) (hqueued : i.status = .known .queued) : i ∈ v.tables.items := by
  rcases Surroundings.acts_tables hacts with htables | ⟨call, now, rfl | rfl, htables⟩
  · rwa [htables]
  · rw [htables, Tables.items_serve hu, List.mem_append, List.mem_map]
    exact .inl ⟨i, hi, StoreCall.onItem_of_queued hwithin hitems hstamps hqueued⟩
  · exact absurd hwithin id

/-- A step that keeps all items coherent and leaves the queued ones as they are. -/
structure LeavesQueued (u v : Scene) : Prop where
  coherent : AllCoherent u → AllCoherent v
  queued : ∀ i : Item, i.status = .known .queued → (i ∈ v.tables.items ↔ i ∈ u.tables.items)

theorem AllCoherent.stable : Stable LeavesQueued AllCoherent :=
  fun _ _ hu hstep => hstep.coherent hu

theorem OperatorCall.leavesQueued {call : OperatorCall} (hu : u.tables.IsWellFormed)
    (hacts : around.acts actor effect answer u v) (hwithin : effect.Within call.desk) :
    LeavesQueued u v := by
  constructor
  · intro hall
    exact hall.of_acts hu hacts hwithin (fun _ _ => False.elim) fun _ _ => False.elim
  · intro i hqueued
    exact ⟨fun hi => queued_before hu hacts hwithin id id hi hqueued,
      fun hi => queued_after hu hacts hwithin id id hi hqueued⟩

/-- What the engine makes of a scene whose rows are told apart by their identifiers. -/
abbrev tellingTurns (around : Surroundings) : Acts Scene :=
  Office.Known (fun s => s.tables.IsWellFormed) (around.acts .engine)

/-- Among such steps, a program keeps all items coherent. -/
abbrev Cares (around : Surroundings) {α : Type} (p : Program α) (w : Scene) : Prop :=
  p.Meets (tellingTurns around) LeavesQueued (fun u v => AllCoherent u → AllCoherent v)
    (fun _ => AllCoherent) w

/-- All may be written, but items are not stamped, and only pending ones are moved. -/
def Scope.unchecked : Scope where
  items _ source := source = .pending
  mail _ := True
  stamps _ := False
  renews _ := True
  moves _ _ _ := True
  counts _ := True
  creates _ := True

theorem calm_unchecked :
    Calm (tellingTurns around) .unchecked LeavesQueued (fun u v => AllCoherent u → AllCoherent v)
      AllCoherent := by
  refine ⟨AllCoherent.stable, fun hacts hwithin hall => ?_⟩
  have hv := hall.of_acts hacts.1 hacts.2.2 hwithin (fun _ _ => False.elim) fun _ _ hsource => by
    cases hsource
  exact ⟨fun _ => hv, hv⟩

/-- Some items may be moved if they are queued, and jobs may be counted and moved. -/
def Scope.settling (ids : List Uuid) : Scope where
  items id source := source = .queued ∧ id ∈ ids
  mail _ := False
  stamps _ := False
  renews _ := False
  moves _ _ _ := True
  counts _ := True
  creates _ := False

/-- Some items may be stamped, and that is all. -/
def Scope.stamping (ids : List Uuid) : Scope where
  items _ _ := False
  mail _ := False
  stamps id := id ∈ ids
  renews _ := False
  moves _ _ _ := False
  counts _ := False
  creates _ := False

/-- Some items are all coherent and queued. -/
structure AreListed (ids : List Uuid) (s : Scene) : Prop where
  coherent : AllCoherent s
  queued : ∀ id ∈ ids, ∃ i ∈ s.tables.items, i.id = id ∧ i.status = .known .queued

/-- All items are coherent, and of some of them those that are queued are stamped. -/
structure AreStamped (ids : List Uuid) (s : Scene) : Prop where
  coherent : AllCoherent s
  checked : ∀ i ∈ s.tables.items, i.id ∈ ids → i.status = .known .queued →
    i.checkedAt.isSome = true

theorem AreListed.stable : Stable LeavesQueued (AreListed ids) := by
  intro u v hu hstep
  refine ⟨hstep.coherent hu.coherent, fun id hid => ?_⟩
  obtain ⟨i, hi, hsame, hqueued⟩ := hu.queued id hid
  exact ⟨i, (hstep.queued i hqueued).2 hi, hsame, hqueued⟩

theorem AreStamped.stable : Stable LeavesQueued (AreStamped ids) := by
  intro u v hu hstep
  refine ⟨hstep.coherent hu.coherent, fun i hi hid hqueued => ?_⟩
  exact hu.checked i ((hstep.queued i hqueued).1 hi) hid hqueued

/-- Listed items have their servers' identifiers when they come to be stamped. -/
theorem AreListed.stamp (hlisted : AreListed ids u) (hu : u.tables.IsWellFormed)
    (hacts : around.acts actor effect answer u v) (hwithin : effect.Within (.stamping ids)) :
    AllCoherent v := by
  apply hlisted.coherent.of_acts hu hacts hwithin _ fun _ _ => False.elim
  intro i hi hid
  obtain ⟨k, hk, hsame, hqueued⟩ := hlisted.queued i.id hid
  obtain rfl : k = i := List.inj_on_of_nodup_map hu.items_nodup hk hi hsame
  exact (hlisted.coherent k hk).remoteId_of_queued hqueued

theorem areStamped_of_checkItems {reply : (StoreCall.checkItems ids).Reply}
    (hlisted : AreListed ids u) (hu : u.tables.IsWellFormed)
    (hacts : around.acts actor (.store (.checkItems ids)) (.ok reply) u v) : AreStamped ids v := by
  refine ⟨hlisted.stamp hu hacts fun _ hid => hid, fun i hi hid _ => ?_⟩
  obtain ⟨now, -, htables⟩ := Surroundings.acts_ok hacts
  rw [htables, Tables.items_serve hu, List.mem_append, List.mem_map] at hi
  rcases hi with ⟨k, -, rfl⟩ | hi
  · rw [StoreCall.onItem_id] at hid
    simp [StoreCall.onItem, hid]
  · cases hi

theorem calm_settling :
    Calm (tellingTurns around) (.settling ids) LeavesQueued
      (fun u v => AllCoherent u → AllCoherent v) (AreStamped ids) := by
  refine ⟨AreStamped.stable, fun {effect answer u v} hacts hwithin hu => ?_⟩
  have hv : AllCoherent v := by
    apply hu.coherent.of_acts hacts.1 hacts.2.2 hwithin fun _ _ => False.elim
    exact fun i hi hitem => hu.checked i hi hitem.2
  refine ⟨fun _ => hv, hv, fun i hi hid hqueued => ?_⟩
  have hbefore : i ∈ u.tables.items := by
    apply queued_before hacts.1 hacts.2.2 hwithin _ id hi hqueued
    rintro ⟨⟨⟩, -⟩
  exact hu.checked i hbefore hid hqueued

/-- Items are stamped before any of them is confirmed. -/
theorem cares_reconcileItems {items : List Item} (hw : AreListed (items.map Item.id) w) :
    Cares around (e.reconcileItems items).run w := by
  apply Meets.store AreListed.stable hw
  · intro reply u v hu hacts
    have hv := areStamped_of_checkItems hu hacts.1 hacts.2.2
    refine ⟨fun _ => hv.coherent, Meets.lift ?_⟩
    have hchecks : Asks (Effect.Within (.settling (items.map Item.id)))
        (.forEach .permitted items e.reconcileItem) :=
      Asks.forEach fun i hi => e.asks_reconcileItem ⟨rfl, List.mem_map_of_mem hi⟩
    apply (calm_settling.meets hchecks hv).weaken
    intro moved x hx
    apply (calm_settling.meets (Engine.asks_review (fun _ _ => trivial) fun _ _ _ _ _ _ =>
      trivial) hx).weaken
    exact fun _ _ hy => hy.coherent
  · intro failure u v hu hacts
    have hv := hu.stamp hacts.1 hacts.2.2 fun _ hid => hid
    exact ⟨fun _ => hv, Meets.pure AllCoherent.stable hv⟩

theorem cares_reconcile (hw : AllCoherent w) : Cares around e.reconcile.run w := by
  refine calm_unchecked.store trivial hw ?_ fun _ _ hv => Meets.pure AllCoherent.stable hv
  intro items u v _ hv hacts
  split
  · exact Meets.pure AllCoherent.stable hv
  · apply cares_reconcileItems
    refine ⟨hv, fun id hid => ?_⟩
    obtain ⟨i, hi, rfl⟩ := List.mem_map.1 hid
    obtain ⟨now, hreply, htables⟩ := Surroundings.acts_ok hacts.2.2
    obtain ⟨hrow, hqueued⟩ := Tables.mem_queuedItems (hreply ▸ hi)
    exact ⟨i, htables ▸ hrow, rfl, hqueued⟩

theorem cares_tick (hw : AllCoherent w) : Cares around e.tick w := by
  have hpromote : Asks (Effect.Within .unchecked) Engine.promote.run :=
    Engine.asks_promote fun _ => trivial
  have hdrive : Asks (Effect.Within .unchecked) e.driveAll.run :=
    e.asks_driveAll (fun _ => ⟨rfl, trivial⟩) (fun _ => trivial) fun _ _ _ => trivial
  exact Meets.tick AllCoherent.stable (fun _ => calm_unchecked.meets hpromote)
    (fun _ => cares_reconcile) (fun _ => calm_unchecked.meets hdrive) hw

namespace Office

open Rehearsal (fair)

variable {t : Tables} {o : Office}

/-- Whatever operators do meanwhile and whatever goes wrong, all items are coherent, and a list of
queued items that is long enough for those with an identifier of their server has all queued
items. -/
theorem Reachable.items_coherent (ht : Sequential.HasNoJobs t) (ho : Reachable e around t o) :
    (∀ i ∈ o.scene.tables.items, i.IsCoherent) ∧
      ∀ i ∈ o.scene.tables.items, i.status = .known .queued →
        ∀ limit : Int, (o.scene.tables.items.countP Tables.isAwaiting : Int) ≤ limit →
          i ∈ o.scene.tables.queuedItems limit := by
  have hempty : t.IsWellFormed := Tables.isWellFormed_of_empty ht.1 ht.2
  have hstart : AllCoherent (opening t).scene := by simp [AllCoherent, opening, ht.2]
  have hquiet : ∀ place call effect answer u v, Effect.Within (OperatorCall.desk call) effect →
      u.tables.IsWellFormed → v.tables.IsWellFormed →
        around.acts (.operator place call) effect answer u v → LeavesQueued u v :=
    fun _ _ _ _ _ _ hwithin hu _ hacts => OperatorCall.leavesQueued hu hacts hwithin
  have horderly := ho.orderly ⟨hstart, hstart⟩ OperatorCall.asks_desk
    (fun _ _ hpast _ _ => hpast.isWellFormed hempty) hquiet AllCoherent.stable AllCoherent.stable
    (fun _ _ hs => cares_tick hs) (ho.isWellFormed hempty)
  refine ⟨horderly.holds, fun i hi hqueued limit hlimit => ?_⟩
  have hremote := (horderly.holds i hi).remoteId_of_queued hqueued
  exact Tables.mem_queuedItems_of_le hi hqueued hremote hlimit

/-- An item that was taken when the store failed to record it is listed once it has been recorded
and checked. -/
theorem listed_once_recorded :
    Sequential.HasNoJobs Rehearsal.tables ∧
      ∃ o, Reachable Rehearsal.engine .harsh Rehearsal.tables o ∧
        ∃ i ∈ o.scene.tables.items, i.status = .known .queued ∧ i.remoteId.isSome = true ∧
          i.checkedAt.isSome = true ∧ i ∈ o.scene.tables.queuedItems 1 := by
  have ht : Sequential.HasNoJobs Rehearsal.tables := ⟨rfl, rfl⟩
  obtain ⟨o, ho, -, hscene⟩ :=
    Rehearsal.reachable [fair "waiting", fair "waiting", Rehearsal.forgetful]
  obtain ⟨hcoherent, hlisted⟩ := ho.items_coherent ht
  obtain ⟨⟨i, hi, hqueued, hchecked⟩, hone⟩ : (∃ i ∈ o.scene.tables.items,
      i.status = .known .queued ∧ i.checkedAt.isSome = true) ∧
        o.scene.tables.items.countP Tables.isAwaiting = 1 := by
    rw [hscene]
    decide +kernel
  have hremote := (hcoherent i hi).remoteId_of_queued hqueued
  exact ⟨ht, o, ho, i, hi, hqueued, hremote, hchecked, hlisted i hi hqueued 1 (by omega)⟩

end Office

end Mailroom
