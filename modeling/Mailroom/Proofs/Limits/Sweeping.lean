import Mailroom.Proofs.Limits.Windows

/-!
Sweeps, as they look to those who ask.  A sweep drops counters to save room, and the next request of
a key makes a new one; whoever asks is not to notice.  Main statement: two runs in which the same is
asked at the same instants answer it alike, whenever and however often each of them is swept.
-/

namespace Mailroom

namespace Limiter

/-- What a request is answered with: whether it was let in, or what is left. -/
inductive Reply where
  | ruled (admitted : Bool)
  | told (left : Remaining)
deriving DecidableEq, Repr, Inhabited

/-- The reply to a call; nobody waits for one to a sweep. -/
def reply? (l : Limiter) (now : Nat) : Call → Option Reply
  | .allow key perMinute perHour => some (.ruled (l.allow key perMinute perHour now).1)
  | .remaining key perMinute perHour => some (.told (l.remaining key perMinute perHour now))
  | .sweep => none

/-- All that is asked in a run, with the replies, the latest first. -/
def transcript : List (Nat × Call) → List (Nat × Call × Reply)
  | [] => []
  | (now, call) :: earlier =>
      match (ofRun earlier).reply? now call with
      | some reply => (now, call, reply) :: transcript earlier
      | none => transcript earlier

/-- Whether a call asks for something. -/
def Call.asks : Call → Bool
  | .allow .. | .remaining .. => true
  | .sweep => false

def unswept (run : List (Nat × Call)) : List (Nat × Call) := run.filter fun entry => entry.2.asks

variable {l l' : Limiter} {key : String} {now later : Nat} {call : Call}
  {run run' : List (Nat × Call)}

/-- From an instant on, two limiters judge every key by the same windows. -/
def Alike (now : Nat) (l l' : Limiter) : Prop :=
  ∀ key later, now ≤ later → l.standing key later = l'.standing key later

namespace Alike

theorem refl (now : Nat) (l : Limiter) : Alike now l l := fun _ _ _ => rfl

theorem mono (h : Alike now l l') (hlater : now ≤ later) : Alike later l l' :=
  fun key instant hinstant => h key instant (Nat.le_trans hlater hinstant)

/-- Whoever asks cannot tell them apart. -/
theorem reply?_eq (h : Alike now l l') : l.reply? now call = l'.reply? now call := by
  cases call with
  | allow key perMinute perHour =>
      have hstanding := h key now (Nat.le_refl now)
      rw [reply?, reply?, allow_eq, allow_eq, admits, admits, hstanding]
  | remaining key perMinute perHour =>
      have hstanding := h key now (Nat.le_refl now)
      rw [reply?, reply?, remaining_eq (Nat.le_refl now), remaining_eq (Nat.le_refl now), hstanding]
  | sweep => rfl

/-- A request that both are asked leaves them alike. -/
theorem after_asked (h : Alike now l l') (hcall : call.asks = true) :
    Alike now (l.after now call) (l'.after now call) := by
  cases call with
  | allow key perMinute perHour =>
      intro other later hlater
      have hstanding := h key now (Nat.le_refl now)
      by_cases hother : other = key
      · subst hother
        rw [after, after, standing_allow_self, standing_allow_self, settled, settled, admits, admits,
          hstanding]
      · rw [after, after, standing_allow_of_ne hother, standing_allow_of_ne hother]
        exact h other later hlater
  | remaining key perMinute perHour => exact h
  | sweep => cases hcall

/-- A sweep of one of them leaves them alike. -/
theorem after_sweep (h : Alike now l l') (hkeyed : l.IsKeyed) :
    Alike now (l.after now .sweep) l' := by
  intro key later hlater
  rw [after, standing_sweep hkeyed hlater]
  exact h key later hlater

end Alike

theorem Call.asks_or_sweep (call : Call) : call.asks = true ∨ call = .sweep := by
  cases call with
  | sweep => exact .inr rfl
  | _ => exact .inl rfl

theorem unswept_cons_of_asks (hcall : call.asks = true) :
    unswept ((now, call) :: run) = (now, call) :: unswept run :=
  List.filter_cons_of_pos hcall

theorem unswept_cons_sweep : unswept ((now, .sweep) :: run) = unswept run := rfl

/-- The sweeps of a run leave no trace in how the limiter judges. -/
theorem alike_unswept (h : IsTimely run) (hnow : ∀ entry ∈ run, entry.1 ≤ now) :
    Alike now (ofRun run) (ofRun (unswept run)) := by
  induction run generalizing now with
  | nil => exact .refl now empty
  | cons entry earlier ih =>
      obtain ⟨instant, call⟩ := entry
      have hordered := List.pairwise_cons.mp h
      have hearlier := ih hordered.2 hordered.1
      have hinstant : instant ≤ now := (List.forall_mem_cons.mp hnow).1
      rcases call.asks_or_sweep with hcall | rfl
      · rw [unswept_cons_of_asks hcall]
        exact (hearlier.after_asked hcall).mono hinstant
      · rw [unswept_cons_sweep]
        exact (hearlier.after_sweep (isKeyed_ofRun earlier)).mono hinstant

/-- Nor do they in what it replies. -/
theorem transcript_unswept (h : IsTimely run) : transcript (unswept run) = transcript run := by
  induction run with
  | nil => rfl
  | cons entry earlier ih =>
      obtain ⟨instant, call⟩ := entry
      have hordered := List.pairwise_cons.mp h
      rcases call.asks_or_sweep with hcall | rfl
      · have hreply : (ofRun earlier).reply? instant call =
            (ofRun (unswept earlier)).reply? instant call :=
          (alike_unswept hordered.2 hordered.1).reply?_eq
        rw [unswept_cons_of_asks hcall, transcript, transcript, hreply, ih hordered.2]
      · rw [unswept_cons_sweep, ih hordered.2, transcript, reply?]

/-- Every request of a run is replied to, and nothing else is. -/
theorem map_transcript (run : List (Nat × Call)) :
    (transcript run).map (fun entry => (entry.1, entry.2.1)) = unswept run := by
  induction run with
  | nil => rfl
  | cons entry earlier ih =>
      obtain ⟨instant, call⟩ := entry
      cases call with
      | sweep => exact ih
      | _ => exact congrArg (List.cons _) ih

/-- Sweeps cannot be noticed.  Two runs whose instants never go back ask the same at the same instants
exactly if what they ask is also answered alike, whenever and however often each of them is swept;
limits may differ from one request of a key to the next. -/
theorem transcript_eq_iff_unswept_eq (h : IsTimely run) (h' : IsTimely run') :
    transcript run = transcript run' ↔ unswept run = unswept run' := by
  constructor
  · intro hsame
    rw [← map_transcript, ← map_transcript, hsame]
  · intro hsame
    rw [← transcript_unswept h, ← transcript_unswept h', hsame]

/-- A key whose hour ends just when the limiter is swept, beside one whose minute only is over. -/
def swept : List (Nat × Call) :=
  [(3600500, .remaining "busy" 2 3), (3600000, .allow "idle" 1 1), (3600000, .sweep),
    (3599999, .remaining "idle" 1 1), (3599999, .sweep), (60500, .sweep), (60500, .allow "busy" 1 2),
    (500, .allow "busy" 1 2), (0, .allow "idle" 1 1)]

/-- The sweep at the end of the hour drops a counter, and nobody notices. -/
theorem swept_unnoticed :
    IsTimely swept ∧ IsTimely (unswept swept) ∧
      ((ofRun (swept.drop 3)).sweep 3600000).1 = 1 ∧ swept ≠ unswept swept ∧
      transcript swept = transcript (unswept swept) := by
  have htimely : IsTimely swept := by
    unfold IsTimely
    decide
  have htimely' : IsTimely (unswept swept) := by
    unfold IsTimely
    decide
  have hsame : unswept swept = unswept (unswept swept) := by decide
  exact ⟨htimely, htimely', by decide +kernel, by decide,
    (transcript_eq_iff_unswept_eq htimely htimely').mpr hsame⟩

end Limiter

end Mailroom
