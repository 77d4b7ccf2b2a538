import Mailroom.Proofs.Concurrency.Alone
import Mailroom.Proofs.Delivery.Tick

/-!
Delivery at most once.  An engine and any number of operators work on the store at the same time,
calls to the store fail as they may, and servers answer what they like.  Main statements: the
message of an item is taken once, and once more after each renewal; no message that was taken is
forgotten; and an item moves from status to status only for reasons that its server gave.
-/

namespace Mailroom

open History (sinceRenewal acceptances renewals takings)

namespace Office

variable {e : Engine} {around : Surroundings} {t : Tables} {o : Office}

/-- The job of an item is the same in all that came before. -/
theorem belongsTo_of_step {o' : Office} {item job : Uuid} (ho : o.scene.tables.IsWellFormed)
    (hstep : Step e around o o') (hafter : BelongsTo item job o'.scene) :
    BelongsTo item job o.scene := by
  refine ⟨ho, fun i hi => ?_⟩
  rcases hstep.scene_eq_or_acts with hscene | ⟨actor, effect, answer, hacts⟩
  · exact hafter.2 i (hscene ▸ hi)
  · obtain ⟨i', hi', hsame⟩ := Surroundings.acts_sameMessage ho hacts hi
    exact hsame.jobId.symm.trans (hafter.2 i' hi')

/-- Every item has a job, be it one that is yet to come. -/
theorem exists_belongsTo (item : Uuid) (ho : o.scene.tables.IsWellFormed) :
    ∃ job, BelongsTo item job o.scene := by
  cases hitem : o.scene.tables.item? item with
  | none => exact ⟨.zero, ho, fun i hi => by rw [hitem] at hi; cases hi⟩
  | some i =>
      refine ⟨i.jobId, ho, fun k hk => ?_⟩
      obtain rfl := Option.some.inj (hitem.symm.trans hk)
      rfl

theorem Reachable.orderly_item (ht : t.IsWellFormed) (ho : Reachable e around t o) (item : Uuid) :
    ∃ job, Orderly around (BelongsTo item job) (Sound e item) (Tidy e item) (Quiet e item)
      (fun call => Effect.Within (call.scope item)) o := by
  obtain ⟨job, hjob⟩ := exists_belongsTo item (ho.isWellFormed ht)
  refine ⟨job, ho.orderly ?_ (OperatorCall.asks_program item) ?_ ?_ Sound.stable Tidy.stable
    (fun s _ hs => upholds_tick hs) hjob⟩
  · have hsound : Sound e item (opening t).scene := sound_of_empty rfl
    exact ⟨hsound, .free hsound rfl rfl⟩
  · intro p p' hp hstep hafter
    exact belongsTo_of_step (hp.isWellFormed ht) hstep hafter
  · intro place call effect answer u v hwithin hu hv hacts
    rcases OperatorCall.spares_or_renews hwithin with hspares | ⟨renewed, rfl, rfl⟩
    · exact quiet_of_spares hu.1 hacts hspares
    · exact quiet_of_renewal hu.1 hacts

/-- However ticks and operators' calls take turns, whatever calls to the store fail and whatever
servers answer: a server takes a message of an item at most once, and once more for each time that
the item was renewed after a failure.  Between ticks, what was taken since is on the item's row, or
the item is pending and the engine keeps it in mind. -/
theorem Reachable.acceptances_le (ht : t.IsWellFormed) (ho : Reachable e .harsh t o)
    (item : Uuid) :
    acceptances item o.scene.history ≤ 1 + renewals item o.scene.history ∧
      (o.IsBetweenTicks → ∀ remoteId,
        (∃ w ∈ sinceRenewal item o.scene.history, w.accepted? item = some remoteId) →
          ∃ i, o.scene.tables.item? item = some i ∧
            ((i.remoteId = some remoteId ∧
                i.status ∈ [.known .queued, .known .sent, .known .failed]) ∨
              (i.status = .known .pending ∧
                o.scene.accepted.lookup item = some remoteId))) := by
  obtain ⟨job, hsound, hmeets, -⟩ := ho.orderly_item ht item
  constructor
  · have hcounted := hsound.counted
    have honce := hsound.once
    omega
  · rintro ⟨report, hends⟩ remoteId htaken
    have hmem := History.mem_takings.2 htaken
    cases hmeets.result hends with
    | free _ htakings _ =>
        rw [htakings] at hmem
        cases hmem
    | recorded r h =>
        rcases h with ⟨-, htakings, i, hi, -, hremote, hstatus⟩
        obtain rfl : remoteId = r := by simpa [htakings] using hmem
        exact ⟨i, hi, .inl ⟨hremote, hstatus⟩⟩
    | kept r h =>
        rcases h with ⟨-, htakings, i, hi, hheld, hpending⟩
        obtain rfl : remoteId = r := by simpa [htakings] using hmem
        exact ⟨i, hi, .inr ⟨hpending, hheld⟩⟩

/-- The message of a pending item was taken once and is kept in mind. -/
theorem taken_once_and_kept :
    Rehearsal.tables.IsWellFormed ∧
      ∃ o, Reachable Rehearsal.engine .harsh Rehearsal.tables o ∧ o.IsBetweenTicks ∧
        acceptances Rehearsal.item o.scene.history = 1 ∧
          renewals Rehearsal.item o.scene.history = 0 ∧
            ∃ i, o.scene.tables.item? Rehearsal.item = some i ∧ i.status = .known .pending ∧
              o.scene.accepted.lookup Rehearsal.item = some "m-1" := by
  have ht := Rehearsal.isWellFormed
  obtain ⟨o, ho, hidle, hscene⟩ := Rehearsal.reachable [Rehearsal.forgetful]
  obtain ⟨hle, hkept⟩ := Reachable.acceptances_le ht ho Rehearsal.item
  have htaken : "m-1" ∈ takings Rehearsal.item o.scene.history := by
    rw [hscene]
    decide +kernel
  have hpending : (o.scene.tables.item? Rehearsal.item).map Item.status =
      some (.known .pending) := by
    rw [hscene]
    decide +kernel
  have hrenewals : renewals Rehearsal.item o.scene.history = 0 := by
    rw [hscene]
    decide +kernel
  have hpositive : 0 < acceptances Rehearsal.item o.scene.history := by
    rw [hscene]
    decide +kernel
  obtain ⟨i, hi, ⟨-, hstatus⟩ | ⟨hstatus, hheld⟩⟩ :=
    hkept hidle "m-1" (History.mem_takings.1 htaken)
  · rw [hi] at hpending
    obtain hpending : i.status = .known .pending := Option.some.inj hpending
    simp [hpending] at hstatus
  · exact ⟨ht, o, ho, hidle, by omega, hrenewals, i, hi, hstatus, hheld⟩

/-- The tables change only in the events of the history, and each of these leaves an item with its
job, recipient, variant and server: a sent item stays sent, and the status of another one changes
only for one of the reasons of `Justified`. -/
theorem Reachable.moves_justified (ht : t.IsWellFormed) (ho : Reachable e .harsh t o) :
    History.Leads t o.scene.history o.scene.tables ∧
      ∀ later v earlier, o.scene.history = later ++ v :: earlier →
        ∀ item i, v.before.item? item = some i →
          ∃ i', v.after.item? item = some i' ∧ i.SameMessage i' ∧
            (i.status = .known .sent → i'.status = .known .sent) ∧
            ((i'.status = i.status ∧ i'.remoteId = i.remoteId) ∨
              Justified e v earlier i i') := by
  refine ⟨ho.leads, fun later v earlier hsplit item i hi => ?_⟩
  obtain ⟨job, hsound, -, -⟩ := ho.orderly_item ht item
  have hlawful := hsound.lawful
  rw [hsplit] at hlawful
  obtain ⟨i', hi', hsame, hchange⟩ := hlawful.of_append i hi
  refine ⟨i', hi', hsame, fun hsent => ?_, hchange⟩
  rcases hchange with ⟨hstatus, -⟩ | hjustified
  · exact hstatus.trans hsent
  · exact absurd hsent hjustified.not_sent

/-- A pending item was queued, since its server had taken its message. -/
theorem queued_with_reason :
    Rehearsal.tables.IsWellFormed ∧
      ∃ o, Reachable Rehearsal.engine .harsh Rehearsal.tables o ∧
        ∃ later v earlier, o.scene.history = later ++ v :: earlier ∧
          ∃ i i', v.before.item? Rehearsal.item = some i ∧
            v.after.item? Rehearsal.item = some i' ∧ i.status = .known .pending ∧
              i'.status = .known .queued ∧ Justified Rehearsal.engine v earlier i i' := by
  have ht := Rehearsal.isWellFormed
  obtain ⟨o, ho, -, hscene⟩ := Rehearsal.reachable [Rehearsal.fair "waiting"]
  have hqueues : o.scene.history.any (fun v =>
      (v.before.item? Rehearsal.item).map Item.status == some (.known .pending) &&
        (v.after.item? Rehearsal.item).map Item.status == some (.known .queued)) = true := by
    rw [hscene]
    decide +kernel
  obtain ⟨v, hv, hstatuses⟩ := List.any_eq_true.1 hqueues
  simp only [Bool.and_eq_true, beq_iff_eq] at hstatuses
  rcases hstatuses with ⟨hbefore, hafter⟩
  obtain ⟨later, earlier, hsplit⟩ := List.append_of_mem hv
  obtain ⟨i, hi, hpending⟩ := Option.map_eq_some_iff.1 hbefore
  obtain ⟨-, hmoves⟩ := Reachable.moves_justified ht ho
  obtain ⟨i', hi', -, -, hchange⟩ := hmoves later v earlier hsplit Rehearsal.item i hi
  have hqueued : i'.status = .known .queued := by simpa [hi'] using hafter
  rcases hchange with ⟨hsame, -⟩ | hjustified
  · simp [hpending, hqueued] at hsame
  · exact ⟨ht, o, ho, later, v, earlier, hsplit, i, i', hi, hi', hpending, hqueued, hjustified⟩

end Office

end Mailroom
