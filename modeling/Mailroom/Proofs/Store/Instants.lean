import Mailroom.Proofs.Concurrency.Completion

/-!
Requests answered at an instant by a store that never fails, and time that does not run backwards.
Main statement: a run of a program ends no earlier than it begins.
-/

namespace Mailroom

namespace Timestamp

variable {a b c : Timestamp}

theorem le_iff : a.le b = true ↔ a.seconds < b.seconds ∨ a.seconds = b.seconds ∧ a.nanos ≤ b.nanos := by
  simp [le]

theorem le_refl (a : Timestamp) : a.le a = true := by
  simp [le_iff]

theorem le_trans (hab : a.le b = true) (hbc : b.le c = true) : a.le c = true := by
  rw [le_iff] at *
  omega

theorem lt_of_lt_of_le (hab : a.lt b = true) (hbc : b.le c = true) : a.lt c = true := by
  simp only [lt, Bool.not_eq_true', Bool.eq_false_iff] at *
  exact fun hca => hab (le_trans hbc hca)

end Timestamp

/-- A key whose time is over stays so. -/
theorem ApiKey.isExpired_of_le {k : ApiKey} {now later : Timestamp} (hle : now.le later = true)
    (hexpired : k.isExpired now = true) : k.isExpired later = true := by
  unfold isExpired at *
  split
  · rename_i at_ hat
    rw [hat] at hexpired
    exact Timestamp.lt_of_lt_of_le hexpired hle
  · rename_i hnone
    simp [hnone] at hexpired

/-- A request is answered at an instant by a store that never fails.  A call is served, one in the
background is served or lost, and who asks for the time is told it.  All other requests have any
answer and leave the tables alone. -/
def Effect.AnsweredAt (now : Timestamp) : (e : Effect) → e.Answer → Tables → Tables → Prop
  | .store call, answer, t, t' => answer = .ok (t.serve now call).1 ∧ t' = (t.serve now call).2
  | .storeLater call, _, t, t' => t' = (t.serve now call).2 ∨ t' = t
  | .now, answer, t, t' => answer = now ∧ t' = t
  | _, _, t, t' => t' = t

/-- The tables at a time of day. -/
structure Moment where
  tables : Tables
  clock : Timestamp

namespace Moment

/-- A request takes some time and is answered at the end of it. -/
def acts : Acts Moment := fun e answer u v =>
  u.clock.le v.clock = true ∧ e.AnsweredAt v.clock answer u.tables v.tables

theorem clock_le {α : Type} {p : Program α} {a : α} {s s' : Moment}
    (hrun : p.Completes acts s a s') : s.clock.le s'.clock = true := by
  induction hrun with
  | ends hends => exact Timestamp.le_refl _
  | turn hturn hacts _ ih => exact Timestamp.le_trans hacts.1 ih

end Moment

end Mailroom
