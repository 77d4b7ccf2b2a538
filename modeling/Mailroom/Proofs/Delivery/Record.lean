import Mailroom.Proofs.Concurrency.Office

/-!
What the history of an office tells about an item: which servers took a message of it, how often it
was renewed after a failure, and what was taken since.  Main statements: an event that renews the
item starts its record anew, and any other event only adds to it.
-/

namespace Mailroom

namespace Event

/-- What a server is offered, whatever it answers: its name and the message. -/
def offered? : Event → Option (String × Message)
  | ⟨_, .mta server (.submit message), _, _, _⟩ => some (server, message)
  | _ => none

/-- What a server took: its name, the message, and the identifier that it gave out. -/
def took? : Event → Option (String × Message × String)
  | ⟨_, .mta server (.submit message), .ok remoteId, _, _⟩ => some (server, message, remoteId)
  | _ => none

/-- What a server told: its name, the identifier that it was asked about, and the status. -/
def told? : Event → Option (String × String × RemoteStatus)
  | ⟨_, .mta server (.status remoteId), .ok status, _, _⟩ => some (server, remoteId, status)
  | _ => none

/-- The identifier that a server gave out for a message with the header of an item. -/
def accepted? (item : Uuid) (v : Event) : Option String :=
  v.took?.bind fun (_, message, remoteId) =>
    if message.headers.get? Engine.itemHeader = some item.display then some remoteId else none

/-- Whether a failed item is made pending again. -/
def renews (item : Uuid) : Event → Bool
  | ⟨_, .store (.resetFailed _), _, before, after⟩ =>
      (before.item? item).any (fun i => i.status == .known .failed) &&
        (after.item? item).any fun i => i.status == .known .pending
  | _ => false

def stamps (item : Uuid) : Event → Bool
  | ⟨_, .store (.checkItems ids), _, _, _⟩ => ids.contains item
  | _ => false

theorem accepted?_eq_some_iff {item : Uuid} {v : Event} {remoteId : String} :
    v.accepted? item = some remoteId ↔ ∃ server message,
      v.took? = some (server, message, remoteId) ∧
        message.headers.get? Engine.itemHeader = some item.display := by
  constructor
  · intro h
    obtain ⟨⟨server, message, r⟩, htook, hheader⟩ := Option.bind_eq_some_iff.1 h
    simp only [Option.ite_none_right_eq_some, Option.some.injEq] at hheader
    rcases hheader with ⟨hitem, rfl⟩
    exact ⟨server, message, htook, hitem⟩
  · rintro ⟨server, message, htook, hitem⟩
    simp [accepted?, htook, hitem]

theorem accepted?_of_renews {item : Uuid} {v : Event} (h : v.renews item = true) :
    v.accepted? item = none := by
  obtain ⟨actor, effect, answer, before, after⟩ := v
  cases effect with
  | mta server call => cases h
  | _ => rfl

end Event

namespace History

open Event

/-- What has happened since an item was last renewed. -/
def sinceRenewal (item : Uuid) (history : List Event) : List Event :=
  history.takeWhile fun v => !v.renews item

/-- What has happened since an item was last stamped as checked. -/
def sinceStamp (item : Uuid) (history : List Event) : List Event :=
  history.takeWhile fun v => !v.stamps item

/-- How often a server took a message of an item. -/
def acceptances (item : Uuid) (history : List Event) : Nat :=
  history.countP fun v => (v.accepted? item).isSome

def renewals (item : Uuid) (history : List Event) : Nat := history.countP (renews item)

/-- The identifiers that servers gave out for an item since it was last renewed. -/
def takings (item : Uuid) (history : List Event) : List String :=
  (sinceRenewal item history).filterMap (accepted? item)

variable {item : Uuid} {v : Event} {history : List Event}

theorem mem_takings {remoteId : String} :
    remoteId ∈ takings item history ↔
      ∃ w ∈ sinceRenewal item history, w.accepted? item = some remoteId := by
  simp [takings]

theorem sinceRenewal_cons_of_renews (h : v.renews item = true) :
    sinceRenewal item (v :: history) = [] := by
  simp [sinceRenewal, h]

theorem sinceRenewal_cons (h : v.renews item = false) :
    sinceRenewal item (v :: history) = v :: sinceRenewal item history := by
  simp [sinceRenewal, h]

theorem sinceStamp_cons (h : v.stamps item = false) :
    sinceStamp item (v :: history) = v :: sinceStamp item history := by
  simp [sinceStamp, h]

theorem takings_cons_of_renews (h : v.renews item = true) : takings item (v :: history) = [] := by
  rw [takings, sinceRenewal_cons_of_renews h, List.filterMap_nil]

theorem takings_cons (h : v.renews item = false) :
    takings item (v :: history) = (v.accepted? item).toList ++ takings item history := by
  rw [takings, sinceRenewal_cons h, List.filterMap_cons]
  cases v.accepted? item <;> rfl

theorem acceptances_cons :
    acceptances item (v :: history) =
      acceptances item history + (v.accepted? item).toList.length := by
  rw [acceptances, List.countP_cons]
  cases v.accepted? item <;> rfl

theorem renewals_cons :
    renewals item (v :: history) = renewals item history + if v.renews item then 1 else 0 :=
  List.countP_cons

end History

end Mailroom
