import Mailroom.Proofs.Delivery.Sending

/-!
One tick, as far as an item is concerned.  The tick works on the item in at most one task at a time,
and all others leave it alone.  Main statement: a tick that begins with the message of the item in
its place ends that way, whatever operators ask for meanwhile.
-/

namespace Mailroom

open Program (Asks Meets)

variable {e : Engine} {item job : Uuid} {around : Surroundings} {w : Scene} {taken : List String}

theorem stands_isAwaited_stable (i : Item) :
    Stable (Quiet e item) (Stands e item taken (IsAwaited i)) :=
  Stands.stable fun _ _ => IsAwaited.not_failed

/-- A write that says of an item what its server said. -/
theorem upholds_settle {i : Item} {call : StoreCall} {k : call.Answer → Bool}
    (status : ItemStatus) (hmatches : Matches taken i) (hw : Stands e item taken (IsAwaited i) w)
    (hreported : IsReported e item i status.words w)
    (hcall : ∀ job, call ≠ .resetFailed job)
    (honItem : ∀ now row, row.id = item → row.status = .known .queued →
      (call.onItem now row).status = .known status ∧
        (call.onItem now row).remoteId = row.remoteId) :
    Upholds e around item job (do return k (← Program.request (.store call)))
      (fun _ => Tidy e item) w := by
  apply Meets.request ((stands_isAwaited_stable i).and IsReported.stable) ⟨hw, hreported⟩
  intro answer u v hu hacts
  rcases hu with ⟨hu, hreported⟩
  have hv : Tidy e item v := by
    cases answer with
    | error failure => exact (hu.failure hacts.2.2 hcall).tidy_of_awaited hmatches
    | ok reply => exact hu.settle hacts.1.1 hmatches hacts.2.2 hcall hreported honItem
  exact ⟨fun _ => hv.sound, Meets.pure Tidy.stable hv⟩

/-- The answer of an item's server is recorded. -/
theorem upholds_recordStatus {i : Item} {r : RemoteStatus} (hmatches : Matches taken i)
    (hid : i.id = item) (hw : Stands e item taken (IsAwaited i) w)
    (hreported : ∀ words, Text.lowered r.status ∈ words → IsReported e item i words w) :
    Upholds e around item job (Engine.recordStatus i r) (fun _ => Tidy e item) w := by
  unfold Engine.recordStatus
  split
  · rename_i hsent
    apply upholds_settle .sent hmatches hw (hreported _ (r.mem_words hsent)) (by simp)
    intro now row hrow hqueued
    simp [StoreCall.onItem, Tables.isItemIn, hid, hrow, hqueued]
  · rename_i status hother hstatus
    have hword := r.mem_words hstatus
    have hfailed : status = .failed := by
      cases status with
      | failed => rfl
      | sent => exact absurd rfl hother
      | pending => cases hword
      | queued => cases hword
    subst hfailed
    apply upholds_settle .failed hmatches hw (hreported _ hword) (by simp)
    intro now row hrow hqueued
    simp [StoreCall.onItem, Tables.isItemIn, hid, hrow, hqueued]
  · exact Meets.pure Tidy.stable (hw.tidy_of_awaited hmatches)

/-- The server of a queued item is asked about the message that it took. -/
theorem upholds_reconcileItem {i : Item} (hmatches : Matches taken i) (hid : i.id = item)
    (hw : Stands e item taken (IsAwaited i) w) :
    Upholds e around item job (e.reconcileItem i) (fun _ => Tidy e item) w := by
  unfold Engine.reconcileItem
  split
  · exact Meets.pure Tidy.stable (hw.tidy_of_awaited hmatches)
  · rename_i remoteId hremote
    split
    · rename_i hserver
      refine (calm_own (stands_isAwaited_stable i)).request trivial hw ?_
      intro answer u v hu hv hacts
      cases answer with
      | error error => exact Meets.pure Tidy.stable (hv.tidy_of_awaited hmatches)
      | ok r =>
          apply upholds_recordStatus hmatches hid hv
          intro words hword
          rw [IsReported, Surroundings.acts_history hacts.2.2, History.sinceStamp_cons rfl]
          exact ⟨_, List.mem_cons_self, hserver, remoteId, r, hremote, rfl, hword⟩
    · exact Meets.pure Tidy.stable (hw.tidy_of_awaited hmatches)

theorem upholds_reconcileItems {i : Item} {items : List Item} (hmatches : Matches taken i)
    (hnodup : (items.map Item.id).Nodup) (hi : i ∈ items) (hid : i.id = item)
    (hw : Stands e item taken (IsAwaited i) w) :
    Upholds e around item job (e.reconcileItems items).run (fun _ => Tidy e item) w := by
  apply Meets.store (stands_isAwaited_stable i) hw
  · intro reply u v hu hacts
    have hv := hu.stamp hacts.1.1 hacts.2.2
    have hothers : ∀ k ∈ items, k.id ≠ i.id →
        (e.reconcileItem k).Meets (engineActs around item job) (fun _ _ => True) (Quiet e item)
          (fun _ _ => True) v := by
      intro k hk hne
      exact calm_aside.meets (Engine.asks_reconcileItem e (hid ▸ hne)) trivial
    refine ⟨fun _ => hv.sound, Meets.lift ?_⟩
    apply (upholds_forEach hnodup hi hothers (upholds_reconcileItem hmatches hid hv)).weaken
    intro moved x hx
    exact (calm_own Tidy.stable).meets
      (Engine.asks_review (fun _ _ => trivial) fun _ _ _ _ _ _ => trivial) hx
  · intro failure u v hu hacts
    have hv := (hu.stamp hacts.1.1 hacts.2.2).tidy_of_awaited hmatches
    exact ⟨fun _ => hv.sound, Meets.pure Tidy.stable hv⟩

theorem upholds_reconcile (hw : Tidy e item w) :
    Upholds e around item job e.reconcile.run (fun _ => Tidy e item) w := by
  refine (calm_own Tidy.stable).store trivial hw ?_ ?_
  · intro items u v hu hv hacts
    obtain ⟨now, hreply, htables⟩ := Surroundings.acts_ok hacts.2.2
    have hnodup : (items.map Item.id).Nodup :=
      hreply ▸ Tables.queuedItems_nodup hacts.1.1 e.settings.reconcileBatchSize
    split
    · exact Meets.pure Tidy.stable hv
    · by_cases hmem : ∃ i ∈ items, i.id = item
      · rcases hmem with ⟨i, hi, hid⟩
        obtain ⟨hrow, hstatus⟩ := Tables.mem_queuedItems (hreply ▸ hi)
        have hfound : u.tables.item? item = some i :=
          (Tables.item?_eq_some_iff hacts.1.1).2 ⟨hrow, hid⟩
        have hsame : v.tables.item? item = some i := htables ▸ hfound
        obtain ⟨taken, hmatches, hawaited⟩ := hv.awaited hsame hstatus
        exact upholds_reconcileItems hmatches hnodup hi hid hawaited
      · have hothers : ∀ i ∈ items, i.id ≠ item := fun i hi hid => hmem ⟨i, hi, hid⟩
        exact (calm_own Tidy.stable).meets (Engine.asks_reconcileItems e
          (fun i hi => ⟨hothers i hi, hothers i hi⟩) (fun _ => trivial) fun _ _ _ _ _ => trivial) hv
  · intro failure v hv
    exact Meets.pure Tidy.stable hv

/-- Jobs are driven side by side, and the item is one of at most one of them. -/
theorem upholds_forEach_drive {jobs : List Job} (hnodup : (jobs.map Job.id).Nodup)
    (hw : Tidy e item w) :
    Upholds e around item job (.forEach .free jobs fun j => (e.drive j).run)
      (fun _ => Tidy e item) w := by
  by_cases hmem : ∃ j ∈ jobs, j.id = job
  · rcases hmem with ⟨j, hj, rfl⟩
    exact upholds_forEach hnodup hj (fun k _ hne => meets_drive_aside hne e) (upholds_drive j hw)
  · refine Meets.forEach_quiet (fun _ _ hquiet hu => Sound.stable hu hquiet) Tidy.stable
      Tidy.stable ?_ hw
    intro j hj
    exact meets_drive_aside (fun hid => hmem ⟨j, hj, hid⟩) e

theorem upholds_driveAll (hw : Tidy e item w) :
    Upholds e around item job e.driveAll.run (fun _ => Tidy e item) w := by
  refine (calm_own Tidy.stable).driveAll (fun _ => calm_own Tidy.stable) ?_ ?_ hw
  · intro jobs u v _ hv hacts
    exact ⟨Surroundings.nodup_of_listed hacts.1.1 hacts.2.2, hv⟩
  · intro jobs begun x _ hnodup hx
    exact upholds_forEach_drive hnodup hx

/-- A tick that begins with the message of an item in its place ends that way. -/
theorem upholds_tick (hw : Tidy e item w) :
    Upholds e around item job e.tick (fun _ => Tidy e item) w := by
  have hpromote : ∀ v, Tidy e item v →
      Upholds e around item job Engine.promote.run (fun _ => Tidy e item) v := fun _ hv =>
    (calm_own Tidy.stable).meets (Engine.asks_promote fun _ => trivial) hv
  exact Meets.tick Tidy.stable hpromote (fun _ => upholds_reconcile) (fun _ => upholds_driveAll) hw

end Mailroom
