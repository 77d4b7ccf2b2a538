import Mailroom.Proofs.Concurrency.Calm
import Mailroom.Proofs.Delivery.Record

/-!
Reasons for what happens to an item.  Its row may change only for one of a few reasons, and those
that concern mail servers name the event in which the server gave the reason.  Main statement: a
request that spares an item leaves its row as it is.
-/

namespace Mailroom

/-- A later row of an item is about the same message: to the same recipient, in the same variant,
through the same server. -/
structure Item.SameMessage (i i' : Item) : Prop where
  id : i'.id = i.id
  jobId : i'.jobId = i.jobId
  recipientId : i'.recipientId = i.recipientId
  variantId : i'.variantId = i.variantId
  server : i'.server = i.server

theorem Item.SameMessage.refl (i : Item) : i.SameMessage i := ⟨rfl, rfl, rfl, rfl, rfl⟩

theorem Item.SameMessage.trans {i i' i'' : Item} (h : i.SameMessage i') (h' : i'.SameMessage i'') :
    i.SameMessage i'' :=
  ⟨h'.id.trans h.id, h'.jobId.trans h.jobId, h'.recipientId.trans h.recipientId,
    h'.variantId.trans h.variantId, h'.server.trans h.server⟩

theorem StoreCall.sameMessage_onItem (now : Timestamp) (c : StoreCall) (i : Item) :
    i.SameMessage (c.onItem now i) := by
  cases c <;> simp only [onItem] <;> (try split) <;> exact ⟨rfl, rfl, rfl, rfl, rfl⟩

namespace Event

/-- The server of an item is known, and took a message to the item's recipient with the headers of
the item and its job. -/
def Accepts (e : Engine) (recipients : List Recipient) (i : Item) (remoteId : String)
    (w : Event) : Prop :=
  e.registry.contains i.server = true ∧ ∃ message recipient,
    w.took? = some (i.server, message, remoteId) ∧
      message.headers.get? Engine.itemHeader = some i.id.display ∧
        message.headers.get? Engine.jobHeader = some i.jobId.display ∧
          recipients.find? (fun r => r.id == i.recipientId) = some recipient ∧
            message.recipient = recipient.email

theorem Accepts.sameMessage {e : Engine} {recipients : List Recipient} {i i' : Item}
    {remoteId : String} {w : Event} (hw : w.Accepts e recipients i remoteId)
    (hsame : i.SameMessage i') : w.Accepts e recipients i' remoteId := by
  rcases hsame with ⟨hid, hjobId, hrecipientId, -, hserver⟩
  simpa only [Accepts, hid, hjobId, hrecipientId, hserver] using hw

/-- The server of an item is known, and answered a question about the message that it took with one
of some words, in letters of either case. -/
def Reports (e : Engine) (i : Item) (words : List String) (w : Event) : Prop :=
  e.registry.contains i.server = true ∧ ∃ remoteId status,
    i.remoteId = some remoteId ∧ w.told? = some (i.server, remoteId, status) ∧
      Text.lowered status.status ∈ words

end Event

theorem Event.Reports.sameMessage {e : Engine} {i i' : Item} {words : List String} {w : Event}
    (hw : w.Reports e i words) (hsame : i.SameMessage i') (hremote : i'.remoteId = i.remoteId) :
    w.Reports e i' words := by
  simpa only [Reports, hsame.server, hremote] using hw

open History (sinceRenewal sinceStamp takings)

/-- Why the row of an item moved to another status in an event, after all that happened before. -/
inductive Justified (e : Engine) (v : Event) (earlier : List Event) (i i' : Item) : Prop where
  | queued (remoteId : String) (w : Event) (hfrom : i.status = .known .pending)
      (hto : i'.status = .known .queued) (hremote : i'.remoteId = some remoteId)
      (hw : w ∈ sinceRenewal i.id earlier)
      (haccepts : w.Accepts e v.before.recipients i remoteId)
  | unsent (hfrom : i.status = .known .pending) (hto : i'.status = .known .failed)
      (hremote : i'.remoteId = i.remoteId) (htakings : takings i.id earlier = [])
  | sent (w : Event) (hfrom : i.status = .known .queued) (hto : i'.status = .known .sent)
      (hremote : i'.remoteId = i.remoteId) (hw : w ∈ sinceStamp i.id earlier)
      (hreports : w.Reports e i ["sent", "delivered"])
  | refused (w : Event) (hfrom : i.status = .known .queued) (hto : i'.status = .known .failed)
      (hremote : i'.remoteId = i.remoteId) (hw : w ∈ sinceStamp i.id earlier)
      (hreports : w.Reports e i ["failed", "rejected", "bounced"])
  | renewed (place : Nat) (hactor : v.actor = .operator place (.retry i.jobId .failed))
      (hfrom : i.status = .known .failed) (hto : i'.status = .known .pending)
      (hremote : i'.remoteId = none)

/-- A sent item is never moved. -/
theorem Justified.not_sent {e : Engine} {v : Event} {earlier : List Event} {i i' : Item}
    (h : Justified e v earlier i i') : i.status ≠ .known .sent := by
  intro hsent
  cases h <;> simp_all

/-- An event leaves an item with its message, and moves it only for a reason. -/
def Event.IsLawful (e : Engine) (item : Uuid) (v : Event) (earlier : List Event) : Prop :=
  ∀ i, v.before.item? item = some i → ∃ i', v.after.item? item = some i' ∧ i.SameMessage i' ∧
    ((i'.status = i.status ∧ i'.remoteId = i.remoteId) ∨ Justified e v earlier i i')

def History.IsLawful (e : Engine) (item : Uuid) : List Event → Prop
  | [] => True
  | v :: earlier => v.IsLawful e item earlier ∧ IsLawful e item earlier

theorem History.IsLawful.of_append {e : Engine} {item : Uuid} {v : Event}
    {later earlier : List Event} (h : IsLawful e item (later ++ v :: earlier)) :
    v.IsLawful e item earlier := by
  induction later with
  | nil => exact h.1
  | cons w later ih => exact ih h.2

/-- All may be written but what concerns an item, and no item is renewed. -/
def Scope.sparing (item : Uuid) : Scope where
  items id _ := id ≠ item
  mail id := id ≠ item
  stamps id := id ≠ item
  renews _ := False
  moves _ _ _ := True
  counts _ := True
  creates _ := True

/-- A request has nothing to do with what becomes of an item. -/
abbrev Effect.Spares (item : Uuid) (e : Effect) : Prop := e.Within (.sparing item)

theorem StoreCall.onItem_of_spares {now : Timestamp} {c : StoreCall} {i : Item}
    (hspares : (Effect.store c).Spares i.id) : c.onItem now i = i := by
  cases c with
  | checkItems ids =>
      have hnot : ids.contains i.id = false := by
        have hmem : i.id ∉ ids := fun h => hspares i.id h rfl
        simpa using hmem
      simp only [onItem, hnot]
      rfl
  | resetFailed job => exact absurd hspares id
  | queueItem id remoteId =>
      have hne : i.id ≠ id := fun h => hspares h.symm
      simp [onItem, Tables.isItemIn, hne]
  | failItem id source error =>
      have hne : i.id ≠ id := fun h => hspares h.symm
      simp [onItem, Tables.isItemIn, hne]
  | confirmItem id =>
      have hne : i.id ≠ id := fun h => hspares h.symm
      simp [onItem, Tables.isItemIn, hne]
  | _ => rfl

namespace Surroundings

variable {around : Surroundings} {actor : Actor} {effect : Effect} {answer : effect.Answer}
  {u v : Scene} {item : Uuid} {i : Item}

/-- A row may change only as a call to the store changes it. -/
theorem acts_item? (hu : u.tables.IsWellFormed) (hacts : around.acts actor effect answer u v)
    (hi : u.tables.item? item = some i) :
    v.tables.item? item = some i ∨ ∃ call now, (effect = .store call ∨ effect = .storeLater call) ∧
      v.tables.item? item = some (call.onItem now i) := by
  rcases acts_tables hacts with htables | ⟨call, now, hcall, htables⟩
  · rw [htables]
    exact .inl hi
  · rw [htables]
    exact .inr ⟨call, now, hcall, Tables.item?_serve_of_some now hu call hi⟩

theorem acts_sameMessage (hu : u.tables.IsWellFormed) (hacts : around.acts actor effect answer u v)
    (hi : u.tables.item? item = some i) :
    ∃ i', v.tables.item? item = some i' ∧ i.SameMessage i' := by
  rcases acts_item? hu hacts hi with hv | ⟨call, now, -, hv⟩
  · exact ⟨i, hv, .refl i⟩
  · exact ⟨_, hv, call.sameMessage_onItem now i⟩

theorem acts_of_spares (hu : u.tables.IsWellFormed) (hacts : around.acts actor effect answer u v)
    (hspares : effect.Spares item) (hi : u.tables.item? item = some i) :
    v.tables.item? item = some i := by
  rcases acts_item? hu hacts hi with hv | ⟨call, now, rfl | rfl, hv⟩
  · exact hv
  · obtain ⟨-, rfl⟩ := (Tables.item?_eq_some_iff hu).1 hi
    rw [hv, StoreCall.onItem_of_spares hspares]
  · exact absurd hspares id

end Surroundings

end Mailroom
