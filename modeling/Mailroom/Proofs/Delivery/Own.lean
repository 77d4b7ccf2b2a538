import Mailroom.Proofs.Delivery.Custody

/-!
What the engine does with an item that it works on: it sends the item's message, records that a
server took it or keeps it in mind, and records what the server says later.  Main statements: each
of these requests takes the message from one place to the next.
-/

namespace Mailroom

open Event
open History (sinceRenewal sinceStamp)

variable {e : Engine} {item : Uuid} {u v : Scene} {around : Surroundings} {actor : Actor}
  {effect : Effect} {answer : effect.Answer} {taken : List String}
  {p q : Option String → Item → Prop}

/-- A request that takes nothing and renews nothing, and moves the row for a reason. -/
theorem Stands.next (hs : Stands e item taken p u) (hacts : around.acts actor effect answer u v)
    (hrenews : renews item ⟨actor, effect, answer, u.tables, v.tables⟩ = false)
    (huntaken : accepted? item ⟨actor, effect, answer, u.tables, v.tables⟩ = none)
    (hrow : ∀ i, u.tables.item? item = some i → p (u.accepted.lookup item) i →
      ∃ i', v.tables.item? item = some i' ∧ i.SameMessage i' ∧
        ((i'.status = i.status ∧ i'.remoteId = i.remoteId) ∨
          Justified e ⟨actor, effect, answer, u.tables, v.tables⟩ u.history i i') ∧
        q (v.accepted.lookup item) i') : Stands e item taken q v := by
  rcases hs with ⟨hsound, htakings, i, hi, hpi⟩
  obtain ⟨i', hi', hsame, hchange, hqi⟩ := hrow i hi hpi
  have hhistory := Surroundings.acts_history hacts
  refine ⟨hsound.pass hhistory ?_ hrenews huntaken (Surroundings.acts_recipients hacts) ?_, ?_,
    i', hi', hqi⟩
  · intro j hj
    obtain rfl := Option.some.inj (hi.symm.trans hj)
    exact ⟨i', hi', hsame, hchange⟩
  · intro j hj
    obtain rfl := Option.some.inj (hi.symm.trans hj)
    exact ⟨i', hi', hsame⟩
  · rw [hhistory, History.takings_cons hrenews, huntaken]
    exact htakings

/-- A call that fails changes nothing. -/
theorem Stands.failure {call : StoreCall} {error : Failure} (hs : Stands e item taken p u)
    (hacts : around.acts actor (.store call) (.error error) u v)
    (hcall : ∀ job, call ≠ .resetFailed job) : Stands e item taken p v := by
  have htables := Surroundings.acts_error hacts
  have haccepted : v.accepted = u.accepted := hacts.2.1.2
  refine hs.next hacts ?_ rfl fun i hi hpi => ?_
  · cases call with
    | resetFailed job => exact absurd rfl (hcall job)
    | _ => rfl
  · rw [htables, haccepted]
    exact ⟨i, hi, .refl i, .inl ⟨rfl, rfl⟩, hpi⟩

def IsPending (_held : Option String) (i : Item) : Prop := i.status = .known .pending

theorem IsPending.not_failed {held : Option String} {i : Item} (h : IsPending held i) :
    i.status ≠ .known .failed := by
  rw [h]
  simp

/-- The row of an item that nobody has taken, as it was read. -/
def IsFree (i : Item) (held : Option String) (row : Item) : Prop :=
  held = none ∧ row = i ∧ i.status = .known .pending

theorem IsFree.not_failed {i : Item} {held : Option String} {row : Item} (h : IsFree i held row) :
    row.status ≠ .known .failed := by
  rcases h with ⟨-, rfl, hstatus⟩
  rw [hstatus]
  simp

theorem Stands.tidy_of_free {i : Item} (hs : Stands e item [] (IsFree i) u) : Tidy e item u := by
  rcases hs with ⟨hsound, htakings, row, hrow, hfree⟩
  exact .free hsound htakings hfree.1

/-- The server of an item takes its message. -/
theorem Stands.take {i : Item} {server remoteId : String} {message : Message}
    (hs : Stands e item [] (IsFree i) u)
    (hacts : around.acts actor (.mta server (.submit message)) (.ok remoteId) u v)
    (haccepts : Accepts e u.tables.recipients i remoteId
      ⟨actor, .mta server (.submit message), .ok remoteId, u.tables, v.tables⟩)
    (hid : i.id = item) : Stands e item [remoteId] IsPending v := by
  rcases hs with ⟨hsound, htakings, row, hrow, -, rfl, hstatus⟩
  have hhistory := Surroundings.acts_history hacts
  have htables : v.tables = u.tables := hacts.2.1.1
  have htaken : accepted? item
      ⟨actor, .mta server (.submit message), .ok remoteId, u.tables, v.tables⟩ = some remoteId := by
    rcases haccepts with ⟨-, message', -, htook, hheader, -⟩
    exact accepted?_eq_some_iff.2 ⟨_, message', htook, hid ▸ hheader⟩
  have hrow' : v.tables.item? item = some row := htables ▸ hrow
  refine ⟨hsound.take hhistory ?_ rfl htakings htaken hrow' (htables ▸ haccepts), ?_, row, hrow',
    hstatus⟩
  · intro j hj
    exact ⟨j, htables ▸ hj, .refl j, .inl ⟨rfl, rfl⟩⟩
  · rw [hhistory, History.takings_cons rfl, htaken, htakings]
    rfl

/-- The server of an item does not take its message. -/
theorem Stands.refuse {server : String} {message : Message} {error : ClientError}
    (hs : Stands e item taken p u)
    (hacts : around.acts actor (.mta server (.submit message)) (.error error) u v) :
    Stands e item taken p v := by
  have htables : v.tables = u.tables := hacts.2.1.1
  have haccepted : v.accepted = u.accepted := hacts.2.1.2
  apply hs.next hacts rfl rfl
  intro i hi hpi
  rw [htables, haccepted]
  exact ⟨i, hi, .refl i, .inl ⟨rfl, rfl⟩, hpi⟩

/-- An item that nobody has taken fails. -/
theorem Stands.giveUp {i : Item} {text : String} {reply : Bool}
    (hu : u.tables.IsWellFormed) (hs : Stands e item [] (IsFree i) u)
    (hacts : around.acts actor (.store (.failItem item .pending text)) (.ok reply) u v) :
    Tidy e item v := by
  obtain ⟨now, -, htables⟩ := Surroundings.acts_ok hacts
  have haccepted : v.accepted = u.accepted := hacts.2.1.2
  have hnext : Stands e item [] (fun held _ => held = none) v := by
    apply hs.next hacts rfl rfl
    intro row hrow hfree
    rcases hfree with ⟨hheld, rfl, hstatus⟩
    obtain ⟨-, rfl⟩ := (Tables.item?_eq_some_iff hu).1 hrow
    have hafter := Tables.item?_serve_of_some now hu
      (.failItem row.id .pending text) hrow
    refine ⟨_, htables ▸ hafter, StoreCall.sameMessage_onItem _ _ _, .inr ?_, haccepted ▸ hheld⟩
    refine .unsent hstatus ?_ ?_ hs.takings <;>
      simp [StoreCall.onItem, Tables.isItemIn, hstatus]
  rcases hnext with ⟨hsound, htakings, -, -, hheld⟩
  exact .free hsound htakings hheld

/-- The row of an item that is queued under a server's identifier. -/
def IsQueued (remoteId : String) (_held : Option String) (i : Item) : Prop :=
  i.status = .known .queued ∧ i.remoteId = some remoteId

theorem IsQueued.not_failed {remoteId : String} {held : Option String} {i : Item}
    (h : IsQueued remoteId held i) : i.status ≠ .known .failed := by
  rw [h.1]
  simp

/-- A pending item that was taken becomes queued: the write finds its row. -/
theorem Stands.queue {remoteId : String} {found : Bool} (hu : u.tables.IsWellFormed)
    (hs : Stands e item [remoteId] IsPending u)
    (hacts : around.acts actor (.store (.queueItem item remoteId)) (.ok found) u v) :
    found = true ∧ Stands e item [remoteId] (IsQueued remoteId) v := by
  obtain ⟨now, hfound, htables⟩ := Surroundings.acts_ok hacts
  constructor
  · rcases hs with ⟨-, -, i, hi, hpending⟩
    have hstatus : i.status = .known .pending := hpending
    obtain ⟨hmem, hid⟩ := (Tables.item?_eq_some_iff hu).1 hi
    have hany : u.tables.items.any (Tables.isItemIn item .pending) = true :=
      List.any_eq_true.2 ⟨i, hmem, by simp [Tables.isItemIn, hid, hstatus]⟩
    rw [hfound]
    simp [Tables.serve, Tables.queueItem, Tables.moveItem, hany]
  · apply hs.next hacts rfl rfl
    intro i hi hpending
    have hstatus : i.status = .known .pending := hpending
    -- the identifier was given out for this item since its last renewal
    have hmem : remoteId ∈ History.takings item u.history := by simp [hs.takings]
    obtain ⟨w, hw, hw'⟩ := History.mem_takings.1 hmem
    obtain ⟨j, hj, haccepts⟩ := hs.sound.vouched w hw remoteId hw'
    obtain rfl := Option.some.inj (hi.symm.trans hj)
    obtain ⟨-, rfl⟩ := (Tables.item?_eq_some_iff hu).1 hi
    have hafter := Tables.item?_serve_of_some now hu (.queueItem i.id remoteId) hi
    refine ⟨_, htables ▸ hafter, StoreCall.sameMessage_onItem _ _ _, .inr ?_, ?_⟩
    · refine .queued remoteId w hstatus ?_ ?_ hw haccepts <;>
        simp [StoreCall.onItem, Tables.isItemIn, hstatus]
    · constructor <;> simp [StoreCall.onItem, Tables.isItemIn, hstatus]

/-- What was recorded need not be kept in mind. -/
theorem Stands.drop {remoteId : String} {answer : Unit}
    (hs : Stands e item [remoteId] (IsQueued remoteId) u)
    (hacts : around.acts actor (.dropAccepted item) answer u v) : Tidy e item v := by
  have htables : v.tables = u.tables := hacts.2.1.1
  have haccepted : v.accepted = Engine.forget item u.accepted := hacts.2.1.2
  refine .recorded remoteId (hs.next hacts rfl rfl fun i hi hqueued => ?_)
  rw [htables, haccepted, Engine.lookup_forget, if_pos rfl]
  exact ⟨i, hi, .refl i, .inl ⟨rfl, rfl⟩, rfl, hqueued.2, by simp [hqueued.1]⟩

/-- What could not be recorded is kept in mind. -/
theorem Stands.keep {remoteId : String} {answer : Unit}
    (hs : Stands e item [remoteId] IsPending u)
    (hacts : around.acts actor (.keepAccepted item remoteId) answer u v) : Tidy e item v := by
  have htables : v.tables = u.tables := hacts.2.1.1
  have haccepted : v.accepted = Engine.keep item remoteId u.accepted := hacts.2.1.2
  refine .kept remoteId (hs.next hacts rfl rfl fun i hi hpending => ?_)
  rw [htables, haccepted, Engine.lookup_keep, if_pos rfl]
  exact ⟨i, hi, .refl i, .inl ⟨rfl, rfl⟩, rfl, hpending⟩

/-- The row of an item that waits for news, as it was read but for the time of its check. -/
def IsAwaited (i : Item) (held : Option String) (row : Item) : Prop :=
  held = none ∧ row.status = .known .queued ∧ i.SameMessage row ∧ row.remoteId = i.remoteId

theorem IsAwaited.not_failed {i : Item} {held : Option String} {row : Item}
    (h : IsAwaited i held row) : row.status ≠ .known .failed := by
  rw [h.2.1]
  simp

/-- What was taken of an item is what its row says. -/
def Matches (taken : List String) (i : Item) : Prop :=
  taken = [] ∨ ∃ remoteId, taken = [remoteId] ∧ i.remoteId = some remoteId

theorem Tidy.awaited {i : Item} (hu : Tidy e item u) (hi : u.tables.item? item = some i)
    (hstatus : i.status = .known .queued) :
    ∃ taken, Matches taken i ∧ Stands e item taken (IsAwaited i) u := by
  cases hu with
  | free hsound htakings hheld =>
      exact ⟨[], .inl rfl, hsound, htakings, i, hi, hheld, hstatus, .refl i, rfl⟩
  | recorded remoteId h =>
      rcases h with ⟨hsound, htakings, j, hj, hheld, hremote, -⟩
      obtain rfl := Option.some.inj (hi.symm.trans hj)
      exact ⟨[remoteId], .inr ⟨remoteId, rfl, hremote⟩, hsound, htakings, i, hi, hheld, hstatus,
        .refl i, rfl⟩
  | kept remoteId h =>
      rcases h with ⟨-, -, j, hj, -, hpending⟩
      obtain rfl := Option.some.inj (hi.symm.trans hj)
      rw [hstatus] at hpending
      cases hpending

/-- A row in a status behind the pending one is a tidy end. -/
theorem Stands.tidy_of_matches {i : Item} {status : ItemStatus} (hmatches : Matches taken i)
    (hstatus : status ≠ .pending)
    (hs : Stands e item taken
      (fun held row => held = none ∧ row.status = .known status ∧ row.remoteId = i.remoteId) u) :
    Tidy e item u := by
  rcases hmatches with rfl | ⟨remoteId, rfl, hremote⟩
  · rcases hs with ⟨hsound, htakings, -, -, hheld, -⟩
    exact .free hsound htakings hheld
  · refine .recorded remoteId (hs.mono fun held row h => ?_)
    rcases h with ⟨hheld, hrow, hsame⟩
    refine ⟨hheld, hsame.trans hremote, ?_⟩
    rw [hrow]
    cases status <;> simp_all

theorem Stands.tidy_of_awaited {i : Item} (hmatches : Matches taken i)
    (hs : Stands e item taken (IsAwaited i) u) : Tidy e item u :=
  (hs.mono fun _ _ h => ⟨h.1, h.2.1, h.2.2.2⟩).tidy_of_matches hmatches (by decide)

theorem Stands.stamp {i : Item} {ids : List Uuid} {answer : (StoreCall.checkItems ids).Answer}
    (hu : u.tables.IsWellFormed) (hs : Stands e item taken (IsAwaited i) u)
    (hacts : around.acts actor (.store (.checkItems ids)) answer u v) :
    Stands e item taken (IsAwaited i) v := by
  cases answer with
  | error failure => exact hs.failure hacts (by simp)
  | ok reply =>
      obtain ⟨now, -, htables⟩ := Surroundings.acts_ok hacts
      have haccepted : v.accepted = u.accepted := hacts.2.1.2
      apply hs.next hacts rfl rfl
      intro row hrow hawaited
      rcases hawaited with ⟨hheld, hstatus, hsame, hremote⟩
      have hafter := Tables.item?_serve_of_some now hu (.checkItems ids) hrow
      have hstays : ((StoreCall.checkItems ids).onItem now row).status = row.status ∧
          ((StoreCall.checkItems ids).onItem now row).remoteId = row.remoteId := by
        simp only [StoreCall.onItem]
        split <;> exact ⟨rfl, rfl⟩
      have hsame' := StoreCall.sameMessage_onItem now (.checkItems ids) row
      exact ⟨_, htables ▸ hafter, hsame', .inl hstays, haccepted ▸ hheld,
        hstays.1.trans hstatus, hsame.trans hsame', hstays.2.trans hremote⟩

/-- The engine asked the server of an item since it stamped the item, and the answer was one of
some words. -/
def IsReported (e : Engine) (item : Uuid) (i : Item) (words : List String) (s : Scene) : Prop :=
  ∃ w ∈ sinceStamp item s.history, w.Reports e i words

theorem IsReported.stable {i : Item} {words : List String} :
    Stable (Quiet e item) (IsReported e item i words) := by
  rintro u v ⟨w, hw, hreports⟩ ⟨x, hx⟩
  refine ⟨w, ?_, hreports⟩
  rw [hx.history, History.sinceStamp_cons hx.unstamped]
  exact List.mem_cons_of_mem x hw

/-- The words in which servers say what became of an item. -/
def ItemStatus.words : ItemStatus → List String
  | sent => ["sent", "delivered"]
  | failed => ["failed", "rejected", "bounced"]
  | _ => []

theorem RemoteStatus.mem_words {r : RemoteStatus} {status : ItemStatus}
    (h : r.itemStatus? = some status) : Text.lowered r.status ∈ status.words := by
  simp only [itemStatus?] at h
  split at h
  · rename_i hword
    obtain rfl := Option.some.inj h
    simpa [ItemStatus.words] using hword
  · split at h
    · rename_i hword
      obtain rfl := Option.some.inj h
      simpa [ItemStatus.words] using hword
    · cases h

theorem Event.Reports.ne_pending {i : Item} {status : ItemStatus} {w : Event}
    (hw : w.Reports e i status.words) : status ≠ .pending := by
  rintro rfl
  obtain ⟨-, remoteId, answer, -, -, hword⟩ := hw
  cases hword

theorem Event.Reports.justified {w x : Event} {earlier : List Event} {i i' : Item}
    {status : ItemStatus} (hw : w.Reports e i status.words) (hfrom : i.status = .known .queued)
    (hto : i'.status = .known status) (hremote : i'.remoteId = i.remoteId)
    (hmem : w ∈ sinceStamp i.id earlier) : Justified e x earlier i i' := by
  cases status with
  | sent => exact .sent w hfrom hto hremote hmem hw
  | failed => exact .refused w hfrom hto hremote hmem hw
  | pending => exact absurd rfl hw.ne_pending
  | queued =>
      obtain ⟨-, remoteId, answer, -, -, hword⟩ := hw
      cases hword

/-- What a server says about an item is recorded. -/
theorem Stands.settle {i : Item} {call : StoreCall} {reply : call.Reply} {status : ItemStatus}
    (hu : u.tables.IsWellFormed) (hmatches : Matches taken i)
    (hs : Stands e item taken (IsAwaited i) u)
    (hacts : around.acts actor (.store call) (.ok reply) u v)
    (hcall : ∀ job, call ≠ .resetFailed job) (hreported : IsReported e item i status.words u)
    (honItem : ∀ now row, row.id = item → row.status = .known .queued →
      (call.onItem now row).status = .known status ∧
        (call.onItem now row).remoteId = row.remoteId) : Tidy e item v := by
  obtain ⟨now, -, htables⟩ := Surroundings.acts_ok hacts
  have haccepted : v.accepted = u.accepted := hacts.2.1.2
  have hrenews : renews item ⟨actor, .store call, .ok reply, u.tables, v.tables⟩ = false := by
    cases call with
    | resetFailed job => exact absurd rfl (hcall job)
    | _ => rfl
  rcases hreported with ⟨w, hw, hreports⟩
  apply Stands.tidy_of_matches hmatches hreports.ne_pending
  apply hs.next hacts hrenews rfl
  intro row hrow h
  rcases h with ⟨hheld, hqueued, hsame, hremote⟩
  obtain ⟨-, hid⟩ := (Tables.item?_eq_some_iff hu).1 hrow
  have hafter := Tables.item?_serve_of_some now hu call hrow
  obtain ⟨hnew, hkept⟩ := honItem now row hid hqueued
  have hjustified : Justified e ⟨actor, .store call, .ok reply, u.tables, v.tables⟩ u.history row
      (call.onItem now row) :=
    (hreports.sameMessage hsame hremote).justified hqueued hnew hkept (hid ▸ hw)
  exact ⟨_, htables ▸ hafter, StoreCall.sameMessage_onItem _ _ _, .inr hjustified,
    haccepted ▸ hheld, hnew, hkept.trans hremote⟩

end Mailroom
