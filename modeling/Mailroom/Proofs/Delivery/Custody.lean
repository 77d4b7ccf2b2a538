import Mailroom.Proofs.Delivery.Justified

/-!
Who has the message of an item.  Nobody has taken it since the item was last renewed; or a server
took it, and either the row of the item says so or the engine keeps it in mind.  Main statements:
what others do to an item leaves its message where it is, or renews an item that failed.
-/

namespace Mailroom

open Event
open History (sinceRenewal sinceStamp acceptances renewals takings)

variable {e : Engine} {item : Uuid} {u v : Scene} {w : Event}

/-- The record of an item is in order: all events are lawful, at most one message was taken since
the item was last renewed, and the item's own server took it. -/
structure Sound (e : Engine) (item : Uuid) (s : Scene) : Prop where
  lawful : History.IsLawful e item s.history
  once : (takings item s.history).length ≤ 1
  counted : acceptances item s.history ≤ renewals item s.history + (takings item s.history).length
  vouched : ∀ w ∈ sinceRenewal item s.history, ∀ remoteId, w.accepted? item = some remoteId →
    ∃ i, s.tables.item? item = some i ∧ w.Accepts e s.tables.recipients i remoteId

theorem sound_of_empty {s : Scene} (h : s.history = []) : Sound e item s := by
  constructor <;>
    simp [h, History.IsLawful, takings, sinceRenewal, acceptances, renewals]

/-- An event in which nothing is taken and nothing is renewed. -/
theorem Sound.pass (hs : Sound e item u) (hhistory : v.history = w :: u.history)
    (hlawful : w.IsLawful e item u.history) (hrenews : w.renews item = false)
    (huntaken : w.accepted? item = none)
    (hrecipients : v.tables.recipients = u.tables.recipients)
    (hrow : ∀ i, u.tables.item? item = some i →
      ∃ i', v.tables.item? item = some i' ∧ i.SameMessage i') : Sound e item v := by
  have htakings : takings item v.history = takings item u.history := by
    rw [hhistory, History.takings_cons hrenews, huntaken]
    rfl
  constructor
  · rw [hhistory]
    exact ⟨hlawful, hs.lawful⟩
  · rw [htakings]
    exact hs.once
  · have hcounted := hs.counted
    rw [htakings, hhistory, History.acceptances_cons, History.renewals_cons, huntaken, hrenews]
    simpa using hcounted
  · intro x hx remoteId hx'
    rw [hhistory, History.sinceRenewal_cons hrenews] at hx
    rcases List.mem_cons.1 hx with rfl | hx
    · rw [huntaken] at hx'
      cases hx'
    · obtain ⟨i, hi, haccepts⟩ := hs.vouched x hx remoteId hx'
      obtain ⟨i', hi', hsame⟩ := hrow i hi
      rw [hrecipients]
      exact ⟨i', hi', haccepts.sameMessage hsame⟩

/-- An event that renews the item. -/
theorem Sound.renew (hs : Sound e item u) (hhistory : v.history = w :: u.history)
    (hlawful : w.IsLawful e item u.history) (hrenews : w.renews item = true) :
    Sound e item v := by
  have huntaken := accepted?_of_renews hrenews
  have htakings : takings item v.history = [] := by
    rw [hhistory, History.takings_cons_of_renews hrenews]
  constructor
  · rw [hhistory]
    exact ⟨hlawful, hs.lawful⟩
  · simp [htakings]
  · have hcounted := hs.counted
    have honce := hs.once
    rw [htakings, hhistory, History.acceptances_cons, History.renewals_cons, huntaken, hrenews]
    simp only [Option.toList_none, List.length_nil, if_true]
    omega
  · intro x hx
    rw [hhistory, History.sinceRenewal_cons_of_renews hrenews] at hx
    cases hx

/-- An event in which the item's server takes the first message since the item was renewed. -/
theorem Sound.take {remoteId : String} {i : Item} (hs : Sound e item u)
    (hhistory : v.history = w :: u.history) (hlawful : w.IsLawful e item u.history)
    (hrenews : w.renews item = false) (htakings : takings item u.history = [])
    (htaken : w.accepted? item = some remoteId) (hi : v.tables.item? item = some i)
    (haccepts : w.Accepts e v.tables.recipients i remoteId) : Sound e item v := by
  have hnow : takings item v.history = [remoteId] := by
    rw [hhistory, History.takings_cons hrenews, htaken, htakings]
    rfl
  constructor
  · rw [hhistory]
    exact ⟨hlawful, hs.lawful⟩
  · simp [hnow]
  · have hcounted := hs.counted
    rw [htakings] at hcounted
    rw [hnow, hhistory, History.acceptances_cons, History.renewals_cons, htaken, hrenews]
    simpa using hcounted
  · intro x hx remoteId' hx'
    rw [hhistory, History.sinceRenewal_cons hrenews] at hx
    rcases List.mem_cons.1 hx with rfl | hx
    · obtain rfl := Option.some.inj (htaken.symm.trans hx')
      exact ⟨i, hi, haccepts⟩
    · have hmem := History.mem_takings.2 ⟨x, hx, hx'⟩
      rw [htakings] at hmem
      cases hmem

/-- An event leaves an item alone, but may renew it after its failure. -/
structure Passes (e : Engine) (item : Uuid) (w : Event) (u v : Scene) : Prop where
  history : v.history = w :: u.history
  lawful : w.IsLawful e item u.history
  untaken : w.accepted? item = none
  unstamped : w.stamps item = false
  accepted : v.accepted.lookup item = u.accepted.lookup item
  recipients : v.tables.recipients = u.tables.recipients
  row : ∀ i, u.tables.item? item = some i →
    (w.renews item = false ∧ v.tables.item? item = some i) ∨
      (i.status = .known .failed ∧ w.renews item = true)

/-- A step leaves an item alone, but may renew it after its failure. -/
def Quiet (e : Engine) (item : Uuid) (u v : Scene) : Prop := ∃ w, Passes e item w u v

section

variable {around : Surroundings} {actor : Actor} {effect : Effect} {answer : effect.Answer}

theorem acts_lookup_of_spares (hacts : around.acts actor effect answer u v)
    (hspares : effect.Spares item) : v.accepted.lookup item = u.accepted.lookup item := by
  rcases hacts with ⟨-, hreaction, -⟩
  cases effect with
  | keepAccepted id remoteId =>
      have hne : item ≠ id := fun h => hspares h.symm
      rw [hreaction.2, Engine.lookup_keep, if_neg hne]
  | dropAccepted id =>
      have hne : item ≠ id := fun h => hspares h.symm
      rw [hreaction.2, Engine.lookup_forget, if_neg hne]
  | accepted => rw [hreaction.2.2]
  | _ => rw [hreaction.2]

theorem renews_of_spares (hspares : effect.Spares item) (before after : Tables) :
    renews item ⟨actor, effect, answer, before, after⟩ = false := by
  cases effect with
  | store call =>
      cases call with
      | resetFailed job => exact absurd hspares id
      | _ => rfl
  | _ => rfl

theorem stamps_of_spares (hspares : effect.Spares item) (before after : Tables) :
    stamps item ⟨actor, effect, answer, before, after⟩ = false := by
  cases effect with
  | store call =>
      cases call with
      | checkItems ids =>
          have hmem : item ∉ ids := fun h => hspares item h rfl
          simpa [stamps] using hmem
      | _ => rfl
  | _ => rfl

theorem accepted?_of_spares (hspares : effect.Spares item) (before after : Tables) :
    accepted? item ⟨actor, effect, answer, before, after⟩ = none := by
  cases effect with
  | mta server call =>
      cases call with
      | submit message =>
          cases answer with
          | ok remoteId =>
              have hother : message.headers.get? Engine.itemHeader ≠ some item.display :=
                fun h => hspares item h rfl
              simp [accepted?, took?, hother]
          | error error => rfl
      | _ => rfl
  | _ => rfl

/-- A request that spares an item is quiet. -/
theorem quiet_of_spares (hu : u.tables.IsWellFormed) (hacts : around.acts actor effect answer u v)
    (hspares : effect.Spares item) : Quiet e item u v := by
  have hrenews : renews item ⟨actor, effect, answer, u.tables, v.tables⟩ = false :=
    renews_of_spares hspares u.tables v.tables
  refine ⟨_, Surroundings.acts_history hacts, ?_, accepted?_of_spares hspares _ _,
    stamps_of_spares hspares _ _, acts_lookup_of_spares hacts hspares,
    Surroundings.acts_recipients hacts, ?_⟩
  · intro i hi
    exact ⟨i, Surroundings.acts_of_spares hu hacts hspares hi, .refl i, .inl ⟨rfl, rfl⟩⟩
  · intro i hi
    exact .inl ⟨hrenews, Surroundings.acts_of_spares hu hacts hspares hi⟩

/-- An operator's renewal of a job's failed items is quiet. -/
theorem quiet_of_renewal {place : Nat} {job : Uuid} {answer : (StoreCall.resetFailed job).Answer}
    (hu : u.tables.IsWellFormed)
    (hacts : around.acts (.operator place (.retry job .failed)) (.store (.resetFailed job)) answer
      u v) : Quiet e item u v := by
  have hrow : ∀ i, u.tables.item? item = some i →
      v.tables.item? item = some i ∨ (i.status = .known .failed ∧ i.jobId = job ∧
        ∃ now, v.tables.item? item = some (Tables.renewed now i)) := by
    intro i hi
    rcases Surroundings.acts_item? hu hacts hi with hv | ⟨call, now, hcall, hv⟩
    · exact .inl hv
    · have hreset : StoreCall.resetFailed job = call := by simpa using hcall
      subst hreset
      simp only [StoreCall.onItem] at hv
      split at hv
      · rename_i hfailure
        simp only [Tables.isFailure, Bool.and_eq_true, beq_iff_eq] at hfailure
        exact .inr ⟨hfailure.2, hfailure.1, now, hv⟩
      · exact .inl hv
  refine ⟨_, Surroundings.acts_history hacts, ?_, rfl, rfl, ?_, Surroundings.acts_recipients hacts,
    ?_⟩
  · intro i hi
    rcases hrow i hi with hv | ⟨hfailed, rfl, now, hv⟩
    · exact ⟨i, hv, .refl i, .inl ⟨rfl, rfl⟩⟩
    · exact ⟨_, hv, ⟨rfl, rfl, rfl, rfl, rfl⟩, .inr (.renewed place rfl hfailed rfl rfl)⟩
  · rw [hacts.2.1.2]
  · intro i hi
    rcases hrow i hi with hv | ⟨hfailed, -, now, hv⟩
    · refine .inl ⟨?_, hv⟩
      simp only [renews, hi, hv, Option.any_some, Bool.and_eq_false_iff, beq_eq_false_iff_ne]
      by_cases hfailed : i.status = .known .failed
      · simp [hfailed]
      · exact .inl hfailed
    · refine .inr ⟨hfailed, ?_⟩
      simp [renews, hi, hv, hfailed, Tables.renewed]

/-- What is written for an operator, as far as an item is concerned. -/
def OperatorCall.scope (item : Uuid) (call : OperatorCall) : Scope :=
  { Scope.sparing item with renews := fun job => call = .retry job .failed }

theorem OperatorCall.asks_program (item : Uuid) (call : OperatorCall) :
    call.program.Asks (Effect.Within (call.scope item)) := by
  cases call with
  | create r registry standard => exact r.asks_create registry standard trivial trivial
  | pause job => exact JobControl.Move.asks_make trivial
  | resume job => exact JobControl.Move.asks_make trivial
  | cancel job => exact JobControl.Move.asks_make trivial
  | retry job action =>
      exact JobControl.asks_retry (fun haction => congrArg _ haction) trivial trivial

theorem OperatorCall.spares_or_renews {call : OperatorCall}
    (hwithin : effect.Within (call.scope item)) :
    effect.Spares item ∨ ∃ job, call = .retry job .failed ∧ effect = .store (.resetFailed job) := by
  cases effect with
  | store c =>
      cases c with
      | resetFailed job => exact .inr ⟨job, hwithin, rfl⟩
      | _ => exact .inl hwithin
  | mta server c => cases c <;> exact .inl hwithin
  | _ => exact .inl hwithin

end

theorem Sound.stable : Stable (Quiet e item) (Sound e item) := by
  rintro u v hs ⟨w, hw⟩
  by_cases hrenews : w.renews item = true
  · exact hs.renew hw.history hw.lawful hrenews
  · apply hs.pass hw.history hw.lawful (by simpa using hrenews) hw.untaken hw.recipients
    intro i hi
    rcases hw.row i hi with ⟨-, hv⟩ | ⟨-, hrenewed⟩
    · exact ⟨i, hv, .refl i⟩
    · exact absurd hrenewed hrenews

/-- The record of an item is in order, some messages were taken since it was last renewed, and
there is a row of it; the engine's mind and the row are as they should be. -/
structure Stands (e : Engine) (item : Uuid) (taken : List String)
    (p : Option String → Item → Prop) (s : Scene) : Prop where
  sound : Sound e item s
  takings : takings item s.history = taken
  row : ∃ i, s.tables.item? item = some i ∧ p (s.accepted.lookup item) i

/-- Quiet steps change nothing for an item that has not failed. -/
theorem Stands.stable {taken : List String} {p : Option String → Item → Prop}
    (hp : ∀ held i, p held i → i.status ≠ .known .failed) :
    Stable (Quiet e item) (Stands e item taken p) := by
  rintro u v ⟨hsound, htakings, i, hi, hpi⟩ hquiet
  have hsound' := Sound.stable hsound hquiet
  rcases hquiet with ⟨w, hw⟩
  rcases hw.row i hi with ⟨hrenews, hv⟩ | ⟨hfailed, -⟩
  · refine ⟨hsound', ?_, i, hv, ?_⟩
    · rw [hw.history, History.takings_cons hrenews, hw.untaken]
      exact htakings
    · rw [hw.accepted]
      exact hpi
  · exact absurd hfailed (hp _ i hpi)

theorem Stands.mono {taken : List String} {p q : Option String → Item → Prop} {s : Scene}
    (hs : Stands e item taken p s) (h : ∀ held i, p held i → q held i) :
    Stands e item taken q s := by
  rcases hs with ⟨hsound, htakings, i, hi, hpi⟩
  exact ⟨hsound, htakings, i, hi, h _ _ hpi⟩

/-- A server's identifier for an item is on the item's row. -/
def IsRecorded (remoteId : String) (held : Option String) (i : Item) : Prop :=
  held = none ∧ i.remoteId = some remoteId ∧
    i.status ∈ [.known .queued, .known .sent, .known .failed]

/-- A server's identifier for an item is in the engine's mind, and the item waits. -/
def IsKept (remoteId : String) (held : Option String) (i : Item) : Prop :=
  held = some remoteId ∧ i.status = .known .pending

/-- Nobody has the message of an item, or its server has it and that is recorded or kept in mind. -/
inductive Tidy (e : Engine) (item : Uuid) (s : Scene) : Prop where
  | free (hsound : Sound e item s) (htakings : takings item s.history = [])
      (hheld : s.accepted.lookup item = none)
  | recorded (remoteId : String) (h : Stands e item [remoteId] (IsRecorded remoteId) s)
  | kept (remoteId : String) (h : Stands e item [remoteId] (IsKept remoteId) s)

theorem Tidy.sound {s : Scene} (hs : Tidy e item s) : Sound e item s := by
  cases hs with
  | free hsound _ _ => exact hsound
  | recorded _ h => exact h.sound
  | kept _ h => exact h.sound

theorem IsKept.not_failed {remoteId : String} {held : Option String} {i : Item}
    (h : IsKept remoteId held i) : i.status ≠ .known .failed := by
  rw [h.2]
  simp

theorem Tidy.stable : Stable (Quiet e item) (Tidy e item) := by
  intro u v hu hquiet
  have hsound := Sound.stable hu.sound hquiet
  rcases hquiet with ⟨w, hw⟩
  cases hu with
  | free _ htakings hheld =>
      refine .free hsound ?_ (hw.accepted.trans hheld)
      by_cases hrenews : w.renews item = true
      · rw [hw.history, History.takings_cons_of_renews hrenews]
      · rw [hw.history, History.takings_cons (by simpa using hrenews), hw.untaken]
        exact htakings
  | recorded remoteId h =>
      rcases h with ⟨-, htakings, i, hi, hheld, hremote, hstatus⟩
      rcases hw.row i hi with ⟨hrenews, hv⟩ | ⟨-, hrenews⟩
      · refine .recorded remoteId ⟨hsound, ?_, i, hv, hw.accepted.trans hheld, hremote, hstatus⟩
        rw [hw.history, History.takings_cons hrenews, hw.untaken]
        exact htakings
      · refine .free hsound ?_ (hw.accepted.trans hheld)
        rw [hw.history, History.takings_cons_of_renews hrenews]
  | kept remoteId h =>
      exact .kept remoteId (Stands.stable (fun _ _ => IsKept.not_failed) h ⟨w, hw⟩)

end Mailroom
