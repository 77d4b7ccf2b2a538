import Mailroom.Json.Basic
import Mailroom.Mta.Registry

/-!
The dispatch engine's surroundings, what it keeps in mind between its ticks, and the report on what
one of them did.
-/

namespace Mailroom

/-- What the engine depends on: the known servers and the settings. -/
structure Engine where
  registry : Registry
  settings : EngineSettings
deriving DecidableEq, Repr, Inhabited

namespace Engine

/-- The items that servers took without a record of it, with one more. -/
def keep (item : Uuid) (remoteId : String) (kept : List (Uuid × String)) : List (Uuid × String) :=
  (item, remoteId) :: kept.filter fun p => p.1 != item

/-- The items that servers took without a record of it, with one less. -/
def forget (item : Uuid) (kept : List (Uuid × String)) : List (Uuid × String) :=
  kept.filter fun p => p.1 != item

theorem lookup_forget (item other : Uuid) (kept : List (Uuid × String)) :
    (forget item kept).lookup other = if other = item then none else kept.lookup other := by
  induction kept with
  | nil => simp [forget]
  | cons entry rest ih =>
      obtain ⟨id, remoteId⟩ := entry
      simp only [forget] at ih
      by_cases hid : id = item
      · subst hid
        by_cases hother : other = id
        · subst hother
          simpa [forget] using ih
        · have hne : (other == id) = false := by simpa using hother
          simpa [forget, List.lookup_cons, hother, hne] using ih
      · by_cases hother : other = id
        · subst hother
          simp [forget, hid]
        · have hne : (other == id) = false := by simpa using hother
          simpa [forget, List.lookup_cons, hid, hne] using ih

theorem lookup_keep (item other : Uuid) (remoteId : String) (kept : List (Uuid × String)) :
    (keep item remoteId kept).lookup other =
      if other = item then some remoteId else kept.lookup other := by
  have hrest := lookup_forget item other kept
  by_cases hother : other = item
  · subst hother
    simp [keep]
  · have hne : (other == item) = false := by simpa using hother
    simpa [keep, forget, List.lookup_cons, hother, hne] using hrest

end Engine

/-- How many jobs were promoted and finished, and how many items were reconciled, queued, failed, or
taken by a server without a record of it. -/
structure TickReport where
  promoted : Nat := 0
  reconciled : Nat := 0
  queued : Nat := 0
  failed : Nat := 0
  unrecorded : Nat := 0
  finished : Nat := 0
deriving DecidableEq, Repr, Inhabited

namespace TickReport

def add (r s : TickReport) : TickReport :=
  ⟨r.promoted + s.promoted, r.reconciled + s.reconciled, r.queued + s.queued, r.failed + s.failed,
    r.unrecorded + s.unrecorded, r.finished + s.finished⟩

instance : Add TickReport := ⟨add⟩

def sum (rs : List TickReport) : TickReport := rs.foldl add {}

def toJson (r : TickReport) : Json :=
  .obj
    [("promoted", .ofNat r.promoted), ("reconciled", .ofNat r.reconciled),
      ("queued", .ofNat r.queued), ("failed", .ofNat r.failed),
      ("unrecorded", .ofNat r.unrecorded), ("finished", .ofNat r.finished)]

end TickReport

end Mailroom
