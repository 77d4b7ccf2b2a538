import Mailroom.Proofs.Limits.Calls

/-!
What is left of the limits against what is let in.  The one is read off the windows as they were left,
the other after they are brought up to date.  Main statements: a request is let in exactly if
something is left in every window that has a limit; it then takes one away from each of them, and a
request that is kept out takes nothing away.
-/

namespace Mailroom

namespace Remaining

/-- Nothing is left in one of the windows. -/
def IsSpent (r : Remaining) : Prop := r.perMinute = some 0 ∨ r.perHour = some 0

instance (r : Remaining) : Decidable r.IsSpent := inferInstanceAs (Decidable (_ ∨ _))

/-- One more in each window that has a limit. -/
def raised (r : Remaining) : Remaining := ⟨r.perMinute.map (· + 1), r.perHour.map (· + 1)⟩

end Remaining

namespace Window

variable {w : Window} {limit now : Nat}

/-- Of an open window nothing is left exactly if it is full. -/
theorem left_eq_some_zero_iff (h : now < w.endsAt) :
    w.left limit now = some 0 ↔ w.isFull limit = true := by
  have hopen : ¬ w.endsAt ≤ now := Nat.not_le_of_lt h
  by_cases hlimit : limit = 0
  · simp [left, isFull, hlimit]
  · simp [left, isFull, hopen, hlimit, Nat.pos_of_ne_zero hlimit, Nat.sub_eq_zero_iff_le]

/-- One more request takes one away from an open window that is not full. -/
theorem left_counted (h : now < w.endsAt) (hroom : w.isFull limit = false) :
    w.left limit now = (w.counted.left limit now).map (· + 1) := by
  have hopen : ¬ w.endsAt ≤ now := Nat.not_le_of_lt h
  by_cases hlimit : limit = 0
  · simp [left, hlimit]
  · have hless : w.count < limit := by
      simpa [isFull, Nat.pos_of_ne_zero hlimit] using hroom
    have hsub : limit - w.count = limit - (w.count + 1) + 1 := by omega
    simp [left, counted, hopen, hlimit, hsub]

end Window

namespace Counter

variable {c : Counter} {perMinute perHour now : Nat}

/-- Both windows are open. -/
structure IsOpen (c : Counter) (now : Nat) : Prop where
  minute : now < c.minute.endsAt
  hour : now < c.hour.endsAt

theorem isOpen_current (c : Counter) (now : Nat) : (c.current now).IsOpen now :=
  ⟨Window.lt_endsAt_current (by decide), Window.lt_endsAt_current (by decide)⟩

theorem IsOpen.current_eq (h : c.IsOpen now) : c.current now = c := by
  rw [current, Window.current_of_open h.minute, Window.current_of_open h.hour]

theorem IsOpen.isSpent_left_iff (h : c.IsOpen now) :
    (c.left perMinute perHour now).IsSpent ↔
      (c.minute.isFull perMinute || c.hour.isFull perHour) = true := by
  rw [Bool.or_eq_true, ← Window.left_eq_some_zero_iff h.minute,
    ← Window.left_eq_some_zero_iff h.hour]
  rfl

theorem IsOpen.left_counted (h : c.IsOpen now)
    (hroom : (c.minute.isFull perMinute || c.hour.isFull perHour) = false) :
    c.left perMinute perHour now = (c.counted.left perMinute perHour now).raised := by
  obtain ⟨hminute, hhour⟩ := Bool.or_eq_false_iff.mp hroom
  rw [left, Window.left_counted h.minute hminute, Window.left_counted h.hour hhour]
  rfl

end Counter

namespace Limiter

variable {l : Limiter} {key other : String} {perMinute perHour now later : Nat}

theorem isOpen_standing (l : Limiter) (key : String) (now : Nat) : (l.standing key now).IsOpen now :=
  Counter.isOpen_current _ now

/-- A request is let in exactly if what is left says so. -/
theorem allow_eq_true_iff :
    (l.allow key perMinute perHour now).1 = true ↔
      ¬ (l.remaining key perMinute perHour now).IsSpent := by
  rw [remaining_eq (Nat.le_refl now), (isOpen_standing l key now).isSpent_left_iff, allow_eq, admits,
    Bool.not_eq_true', Bool.not_eq_true]

/-- A request that is let in takes one away from each window that has a limit. -/
theorem remaining_of_allowed (h : (l.allow key perMinute perHour now).1 = true) :
    l.remaining key perMinute perHour now =
      ((l.allow key perMinute perHour now).2.remaining key perMinute perHour now).raised := by
  have hadmits : l.admits key perMinute perHour now = true := by
    rwa [allow_eq] at h
  have hroom : ((l.standing key now).minute.isFull perMinute ||
      (l.standing key now).hour.isFull perHour) = false := by
    rwa [admits, Bool.not_eq_true'] at hadmits
  have hopen := isOpen_standing l key now
  have hcounted : (l.standing key now).counted.IsOpen now := ⟨hopen.minute, hopen.hour⟩
  rw [remaining_eq (Nat.le_refl now), remaining_eq (Nat.le_refl now), standing_allow_self, settled,
    if_pos hadmits, hcounted.current_eq, hopen.left_counted hroom]

/-- A request that is kept out takes nothing away, whoever looks and whenever. -/
theorem remaining_of_refused (h : (l.allow key perMinute perHour now).1 = false)
    (hlater : now ≤ later) (minute hour : Nat) :
    (l.allow key perMinute perHour now).2.remaining key minute hour later =
      l.remaining key minute hour later := by
  have hadmits : l.admits key perMinute perHour now = false := by
    rwa [allow_eq] at h
  have hsettled : l.settled key perMinute perHour now = l.standing key now := by
    rw [settled, hadmits, if_neg Bool.false_ne_true]
  rw [remaining_eq hlater, remaining_eq hlater, standing_allow_self, hsettled,
    (isOpen_standing l key now).current_eq]

/-- Other keys keep what they have left. -/
theorem remaining_allow_of_ne (h : other ≠ key) (minute hour : Nat) :
    (l.allow key perMinute perHour now).2.remaining other minute hour later =
      l.remaining other minute hour later := by
  rw [remaining, remaining, counter?_allow, if_neg h]

end Limiter

end Mailroom
