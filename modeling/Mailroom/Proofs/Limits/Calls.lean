import Mathlib.Data.List.Nodup
import Mailroom.Quota

/-!
Runs of calls on the limiter, and what each call leaves for each key.  The limiter keeps a counter
only for keys that asked, and drops it once both its windows are over; what a key is judged by at
an instant is its `standing`.  Main statements: a request moves the standing of its own key only, a
sweep moves no standing at all, and what is left for a key can be read off its standing.
-/

namespace Mailroom

namespace Window

variable {w : Window} {length now later limit : Nat}

/-- A window that is over by then counts for nothing later. -/
theorem current_of_over (h : w.endsAt ≤ now) : w.current now length = start now length := by
  simp [current, h]

theorem current_of_open (h : now < w.endsAt) : w.current now length = w := by
  simp [current, Nat.not_le_of_lt h]

@[simp] theorem current_start : (start now length).current now length = start now length := by
  unfold current
  split
  · rfl
  · rfl

/-- The window that counts is open. -/
theorem lt_endsAt_current (hlength : 0 < length) : now < (w.current now length).endsAt := by
  by_cases h : w.endsAt ≤ now
  · rw [current_of_over h]
    exact Nat.lt_add_of_pos_right hlength
  · rw [current_of_open (Nat.lt_of_not_le h)]
    exact Nat.lt_of_not_le h

/-- Of a window that has let in nothing all is left, and so it is once the window is over. -/
theorem left_start : (start now length).left limit later = if limit = 0 then none else some limit := by
  unfold left start
  split
  · rfl
  · split
    · rfl
    · rfl

/-- Whether a window was brought up to date before does not show in what is left of it. -/
theorem left_current (h : now ≤ later) :
    (w.current now length).left limit later = w.left limit later := by
  by_cases hover : w.endsAt ≤ now
  · rw [current_of_over hover, left_start, left, if_pos (Nat.le_trans hover h)]
  · rw [current_of_open (Nat.lt_of_not_le hover)]

end Window

namespace Counter

/-- A counter whose windows are both over counts for nothing. -/
theorem current_of_isExpired {c : Counter} {now : Nat} (h : c.isExpired now = true) :
    c.current now = start now := by
  simp only [isExpired, Bool.and_eq_true, decide_eq_true_eq] at h
  simp only [current, start, Window.current_of_over h.1, Window.current_of_over h.2]

@[simp] theorem current_start {now : Nat} : (start now).current now = start now := by
  simp [current, start]

/-- Windows that are over stay over. -/
theorem isExpired_mono {c : Counter} {now later : Nat} (h : now ≤ later)
    (hc : c.isExpired now = true) : c.isExpired later = true := by
  simp only [isExpired, Bool.and_eq_true, decide_eq_true_eq] at hc ⊢
  exact ⟨Nat.le_trans hc.1 h, Nat.le_trans hc.2 h⟩

/-- The counter with one more request in both windows. -/
def counted (c : Counter) : Counter := ⟨c.minute.counted, c.hour.counted⟩

/-- What is left in each of the windows. -/
def left (c : Counter) (perMinute perHour now : Nat) : Remaining :=
  ⟨c.minute.left perMinute now, c.hour.left perHour now⟩

end Counter

namespace Limiter

inductive Call where
  | allow (key : String) (perMinute perHour : Nat)
  | remaining (key : String) (perMinute perHour : Nat)
  | sweep
deriving DecidableEq, Repr, Inhabited

def after (l : Limiter) (now : Nat) : Call → Limiter
  | .allow key perMinute perHour => (l.allow key perMinute perHour now).2
  | .remaining .. => l
  | .sweep => (l.sweep now).2

/-- The limiter after a run of calls with their instants, the latest first. -/
def ofRun : List (Nat × Call) → Limiter
  | [] => empty
  | (now, call) :: earlier => (ofRun earlier).after now call

/-- The windows by which a key is judged at an instant. -/
def standing (l : Limiter) (key : String) (now : Nat) : Counter :=
  ((l.counter? key).getD (.start now)).current now

variable {l : Limiter} {key other : String} {perMinute perHour now later : Nat}

/-- Whether a request is let in: neither window of its key is full. -/
def admits (l : Limiter) (key : String) (perMinute perHour now : Nat) : Bool :=
  !((l.standing key now).minute.isFull perMinute || (l.standing key now).hour.isFull perHour)

/-- The windows in which a key is left by a request. -/
def settled (l : Limiter) (key : String) (perMinute perHour now : Nat) : Counter :=
  if l.admits key perMinute perHour now then (l.standing key now).counted else l.standing key now

theorem allow_eq : l.allow key perMinute perHour now =
    (l.admits key perMinute perHour now,
      ⟨Bindings.put key (l.settled key perMinute perHour now) l.counters⟩) := by
  by_cases h : ((l.standing key now).minute.isFull perMinute ||
      (l.standing key now).hour.isFull perHour) = true
  · simp only [settled, admits, h, Bool.not_true, Bool.false_eq_true, if_false]
    exact if_pos h
  · simp only [settled, admits, h, Bool.not_false, if_true]
    exact if_neg h

theorem counter?_allow : (l.allow key perMinute perHour now).2.counter? other =
    if other = key then some (l.settled key perMinute perHour now) else l.counter? other := by
  rw [allow_eq]
  exact Bindings.lookup_put ..

/-- A request leaves its key with the windows of that instant, counted in if it was let in. -/
theorem standing_allow_self : (l.allow key perMinute perHour now).2.standing key later =
    (l.settled key perMinute perHour now).current later := by
  rw [standing, counter?_allow, if_pos rfl, Option.getD_some]

theorem standing_allow_of_ne (h : other ≠ key) :
    (l.allow key perMinute perHour now).2.standing other later = l.standing other later := by
  rw [standing, counter?_allow, if_neg h, standing]

/-- What is left for a key is what its windows leave, from any earlier instant on. -/
theorem remaining_eq (h : now ≤ later) : l.remaining key perMinute perHour later =
    (l.standing key now).left perMinute perHour later := by
  rw [remaining, standing]
  cases l.counter? key with
  | none => simp [Counter.left, Counter.start, Counter.current, Window.left_start]
  | some c => simp [Counter.left, Counter.current, Window.left_current h]

/-! Every key has one counter, so that dropping entries never uncovers an older one. -/

theorem map_putBy {α κ : Type} [DecidableEq κ] (key : α → κ) (row : α) (rows : List α) :
    (putBy key row rows).map key =
      if key row ∈ rows.map key then rows.map key else rows.map key ++ [key row] := by
  induction rows with
  | nil => rfl
  | cons r rows ih =>
      by_cases h : key r = key row
      · simp [putBy, h]
      · have hne : ¬ key row = key r := fun e => h e.symm
        by_cases hmem : key row ∈ rows.map key
        · simp only [putBy, if_neg h, List.map_cons, ih, if_pos hmem, List.mem_cons_of_mem _ hmem,
            if_true]
        · simp only [putBy, if_neg h, List.map_cons, ih, List.mem_cons, hne, hmem, or_self, if_false,
            List.cons_append]

theorem nodup_map_putBy {α κ : Type} [DecidableEq κ] (key : α → κ) (row : α) {rows : List α}
    (h : (rows.map key).Nodup) : ((putBy key row rows).map key).Nodup := by
  rw [map_putBy]
  split
  · exact h
  next hmem =>
    rw [← List.concat_eq_append]
    exact h.concat hmem

/-- Every key has at most one counter. -/
def IsKeyed (l : Limiter) : Prop := (l.counters.map Prod.fst).Nodup

theorem isKeyed_after (h : l.IsKeyed) (call : Call) : (l.after now call).IsKeyed := by
  cases call with
  | allow key perMinute perHour =>
      rw [after, allow_eq]
      exact nodup_map_putBy _ _ h
  | remaining => exact h
  | sweep => exact h.sublist (List.filter_sublist.map _)

theorem isKeyed_ofRun (run : List (Nat × Call)) : (ofRun run).IsKeyed := by
  induction run with
  | nil => exact List.nodup_nil
  | cons entry earlier ih =>
      obtain ⟨now, call⟩ := entry
      exact isKeyed_after ih call

/-- Where names are bound once, a filter keeps or drops the value found under a name. -/
theorem lookup_filter {α : Type} (keep : α → Bool) {b : Bindings α}
    (h : (b.map Prod.fst).Nodup) (name : String) :
    List.lookup name (b.filter fun entry => keep entry.2) = (List.lookup name b).filter keep := by
  induction b with
  | nil => rfl
  | cons entry rest ih =>
      obtain ⟨n, v⟩ := entry
      obtain ⟨hnotin, hrest⟩ := List.nodup_cons.mp h
      by_cases hname : name = n
      · subst hname
        have hnone : List.lookup name rest = none := by
          rw [List.lookup_eq_none_iff]
          intro p hp
          have hp1 : p.1 ∈ rest.map Prod.fst := List.mem_map_of_mem hp
          simpa using fun e : name = p.1 => hnotin (e ▸ hp1)
        by_cases hkeep : keep v = true
        · simp [Option.filter, hkeep]
        · simp [Option.filter, hkeep, ih hrest, hnone]
      · have hne : (name == n) = false := by simpa using hname
        by_cases hkeep : keep v = true
        · simp [hkeep, List.lookup_cons, hne, ih hrest]
        · simp [hkeep, List.lookup_cons, hne, ih hrest]

/-- A sweep moves no key: what it drops counts for nothing by then. -/
theorem standing_sweep (hkeyed : l.IsKeyed) (h : now ≤ later) :
    (l.sweep now).2.standing key later = l.standing key later := by
  have hfound : (l.sweep now).2.counter? key =
      (l.counter? key).filter fun c => !c.isExpired now :=
    lookup_filter (fun c : Counter => !c.isExpired now) hkeyed key
  rw [standing, hfound, standing]
  rcases l.counter? key with _ | c
  · rfl
  · by_cases hc : c.isExpired now = true
    · have hover := Counter.current_of_isExpired (Counter.isExpired_mono h hc)
      simp [Option.filter, hc, hover]
    · simp [Option.filter, hc]

end Limiter

end Mailroom
