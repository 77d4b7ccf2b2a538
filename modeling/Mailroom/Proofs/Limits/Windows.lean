import Mailroom.Proofs.Limits.Calls

/-!
The limiter against the history of what it answered.  The limiter keeps a count and an end for each
window; here a window is read off the requests of the key alone.  Main statements: what the limiter
holds for a key is what the history says, so a request is kept out exactly when the current window
of a minute or of an hour has let in its limit; and no span as long as a window ever lets in more
than twice the limit.
-/

namespace Mailroom

namespace Limiter

structure Ruling where
  instant : Nat
  admitted : Bool
deriving DecidableEq, Repr, Inhabited

/-- The answers to the requests of a key in a run, the latest first. -/
def rulings (key : String) : List (Nat × Call) → List Ruling
  | [] => []
  | (now, .allow other perMinute perHour) :: earlier =>
      if other = key then
        ⟨now, ((ofRun earlier).allow other perMinute perHour now).1⟩ :: rulings key earlier
      else rulings key earlier
  | (_, .remaining ..) :: earlier => rulings key earlier
  | (_, .sweep) :: earlier => rulings key earlier

/-- When the window opened that counts for a request at an instant: at the request before if its
window is not over, now otherwise. -/
def opening (length now : Nat) : List Ruling → Nat
  | [] => now
  | r :: earlier =>
      if opening length r.instant earlier + length ≤ now then now
      else opening length r.instant earlier

/-- How many requests were let in from an instant on. -/
def admittedSince (since : Nat) (rs : List Ruling) : Nat :=
  rs.countP fun r => r.admitted && since ≤ r.instant

/-- How many requests were let in from one instant on and before another. -/
def admittedWithin (since stop : Nat) (rs : List Ruling) : Nat :=
  rs.countP fun r => r.admitted && (since ≤ r.instant && r.instant < stop)

/-- The answers stand in order of time, the latest first. -/
def InOrder (rs : List Ruling) : Prop :=
  rs.Pairwise fun later earlier => earlier.instant ≤ later.instant

section Windows

variable {length limit now : Nat} {r : Ruling} {rs : List Ruling}

theorem opening_cons_of_over (h : opening length r.instant rs + length ≤ now) :
    opening length now (r :: rs) = now := if_pos h

theorem opening_cons_of_open (h : now < opening length r.instant rs + length) :
    opening length now (r :: rs) = opening length r.instant rs := if_neg (Nat.not_le_of_lt h)

theorem opening_le (h : ∀ r ∈ rs, r.instant ≤ now) (hrs : InOrder rs) :
    opening length now rs ≤ now := by
  induction rs generalizing now with
  | nil => exact Nat.le_refl now
  | cons r rs ih =>
      have hr := List.forall_mem_cons.mp h
      have hordered := List.pairwise_cons.mp hrs
      unfold opening
      split
      · exact Nat.le_refl now
      · exact Nat.le_trans (ih hordered.1 hordered.2) hr.1

/-- A window is open at the request it counts for. -/
theorem lt_opening_add (hlength : 0 < length) (now : Nat) (rs : List Ruling) :
    now < opening length now rs + length := by
  rcases rs with _ | ⟨r, rs⟩
  · simpa [opening] using hlength
  · unfold opening
    split
    · omega
    · omega

theorem admittedSince_eq_zero (h : ∀ r ∈ rs, r.instant < now) : admittedSince now rs = 0 := by
  rw [admittedSince, List.countP_eq_zero]
  intro r hr
  have := h r hr
  simp only [Bool.and_eq_true, decide_eq_true_eq, not_and]
  omega

theorem admittedSince_cons (since : Nat) (r : Ruling) (rs : List Ruling) :
    admittedSince since (r :: rs) =
      admittedSince since rs + if r.admitted && since ≤ r.instant then 1 else 0 :=
  List.countP_cons

/-- The window that counts for a request at an instant, as the history has it. -/
def windowAt (length now : Nat) (rs : List Ruling) : Window :=
  ⟨admittedSince (opening length now rs) rs, opening length now rs + length⟩

/-- Once the window of the last request is over, nothing was let in by the next. -/
theorem windowAt_cons_of_over (hlength : 0 < length) (hrs : InOrder (r :: rs))
    (h : opening length r.instant rs + length ≤ now) :
    windowAt length now (r :: rs) = .start now length := by
  have hr : r.instant < now := Nat.lt_of_lt_of_le (lt_opening_add hlength r.instant rs) h
  have hzero : admittedSince now (r :: rs) = 0 := by
    apply admittedSince_eq_zero
    intro s hs
    rcases List.mem_cons.mp hs with rfl | hs
    · exact hr
    · exact Nat.lt_of_le_of_lt ((List.pairwise_cons.mp hrs).1 s hs) hr
  rw [windowAt, opening_cons_of_over h, hzero, Window.start]

/-- While the window of the last request lasts, it has let in that request too, if it was let in. -/
theorem windowAt_cons_of_open (hrs : InOrder (r :: rs))
    (h : now < opening length r.instant rs + length) :
    windowAt length now (r :: rs) =
      if r.admitted then (windowAt length r.instant rs).counted
      else windowAt length r.instant rs := by
  have hordered := List.pairwise_cons.mp hrs
  have hle : opening length r.instant rs ≤ r.instant := opening_le hordered.1 hordered.2
  by_cases hr : r.admitted = true
  · simp [windowAt, opening_cons_of_open h, admittedSince_cons, hr, hle, Window.counted]
  · simp [windowAt, opening_cons_of_open h, admittedSince_cons, hr]

/-- The window after a request, brought up to date, is the one the longer history has. -/
theorem current_windowAt (hlength : 0 < length) (hrs : InOrder (r :: rs)) :
    (if r.admitted then (windowAt length r.instant rs).counted
      else windowAt length r.instant rs).current now length = windowAt length now (r :: rs) := by
  have hends : (if r.admitted then (windowAt length r.instant rs).counted
      else windowAt length r.instant rs).endsAt = opening length r.instant rs + length := by
    split
    · rfl
    · rfl
  by_cases hover : opening length r.instant rs + length ≤ now
  · rw [windowAt_cons_of_over hlength hrs hover, Window.current_of_over (hends ▸ hover)]
  · rw [windowAt_cons_of_open hrs (Nat.lt_of_not_le hover),
      Window.current_of_open (hends ▸ Nat.lt_of_not_le hover)]

/-! How much a sliding span can hold, from what each window holds. -/

/-- Requests are let in only while the window has let in less than the limit. -/
def Obeys (length limit : Nat) : List Ruling → Prop
  | [] => True
  | r :: earlier =>
      (r.admitted = true → (windowAt length r.instant earlier).count < limit) ∧
        Obeys length limit earlier

/-- A window never holds more than the limit. -/
theorem Obeys.count_le (hlength : 0 < length) (hrs : InOrder rs) (h : Obeys length limit rs) :
    (windowAt length now rs).count ≤ limit := by
  induction rs generalizing now with
  | nil => exact Nat.zero_le limit
  | cons r rs ih =>
      by_cases hover : opening length r.instant rs + length ≤ now
      · rw [windowAt_cons_of_over hlength hrs hover]
        exact Nat.zero_le limit
      · rw [windowAt_cons_of_open hrs (Nat.lt_of_not_le hover)]
        split
        next hr => exact h.1 hr
        next => exact ih (List.pairwise_cons.mp hrs).2 h.2

theorem admittedWithin_le (since stop : Nat) (rs : List Ruling) :
    admittedWithin since stop rs ≤ admittedSince since rs := by
  apply List.countP_mono_left
  intro r _ hr
  simp only [Bool.and_eq_true, decide_eq_true_eq] at hr ⊢
  exact ⟨hr.1, hr.2.1⟩

theorem admittedSince_mono {since later : Nat} (h : since ≤ later) (rs : List Ruling) :
    admittedSince later rs ≤ admittedSince since rs := by
  apply List.countP_mono_left
  intro r _ hr
  simp only [Bool.and_eq_true, decide_eq_true_eq] at hr ⊢
  exact ⟨hr.1, Nat.le_trans h hr.2⟩

theorem admittedWithin_cons_of_le {since stop : Nat} (h : stop ≤ r.instant) :
    admittedWithin since stop (r :: rs) = admittedWithin since stop rs := by
  rw [admittedWithin, List.countP_cons_of_neg]
  · rfl
  · simp only [Bool.and_eq_true, decide_eq_true_eq]
    omega

/-- A span is the part before an instant and the part from it on. -/
theorem admittedWithin_le_add (since middle stop : Nat) (rs : List Ruling) :
    admittedWithin since stop rs ≤ admittedWithin since middle rs + admittedSince middle rs := by
  rw [admittedWithin, List.countP_eq_countP_filter_add rs _ fun r => decide (r.instant < middle),
    List.countP_filter, List.countP_filter]
  apply Nat.add_le_add
  · apply List.countP_mono_left
    intro r _ hr
    simp only [Bool.and_eq_true, decide_eq_true_eq] at hr ⊢
    exact ⟨hr.1.1, hr.1.2.1, hr.2⟩
  · apply List.countP_mono_left
    intro r _ hr
    simp only [Bool.and_eq_true, decide_eq_true_eq, Bool.not_eq_true', decide_eq_false_iff_not,
      Nat.not_lt] at hr ⊢
    exact ⟨hr.1.1, hr.2⟩

/-- What was let in within a length before a window opened stood in one earlier window. -/
theorem Obeys.admittedWithin_opening_le (hlength : 0 < length) (hrs : InOrder rs)
    (h : Obeys length limit rs) {since : Nat} (hsince : opening length now rs ≤ since + length) :
    admittedWithin since (opening length now rs) rs ≤ limit := by
  induction rs generalizing now with
  | nil => exact Nat.zero_le limit
  | cons r rs ih =>
      have hordered := List.pairwise_cons.mp hrs
      by_cases hover : opening length r.instant rs + length ≤ now
      · -- The window of the last request closed before now, so it opened before the span.
        rw [opening_cons_of_over hover] at hsince ⊢
        have hstart : opening length r.instant rs ≤ since := by omega
        have hsame : opening length r.instant (r :: rs) = opening length r.instant rs :=
          opening_cons_of_open (lt_opening_add hlength r.instant rs)
        calc admittedWithin since now (r :: rs)
            ≤ admittedSince since (r :: rs) := admittedWithin_le ..
          _ ≤ admittedSince (opening length r.instant rs) (r :: rs) := admittedSince_mono hstart _
          _ = (windowAt length r.instant (r :: rs)).count := by rw [windowAt, hsame]
          _ ≤ limit := h.count_le hlength hrs
      · have hopen := opening_cons_of_open (Nat.lt_of_not_le hover)
        rw [hopen] at hsince ⊢
        rw [admittedWithin_cons_of_le (opening_le hordered.1 hordered.2)]
        exact ih hordered.2 h.2 hsince

/-- No span as long as a window lets in more than twice the limit: it meets two windows. -/
theorem Obeys.admittedWithin_le_two_mul (hlength : 0 < length) (hrs : InOrder rs)
    (h : Obeys length limit rs) (since : Nat) :
    admittedWithin since (since + length) rs ≤ 2 * limit := by
  induction rs with
  | nil => exact Nat.zero_le _
  | cons r rs ih =>
      have hordered := List.pairwise_cons.mp hrs
      by_cases hlate : since + length ≤ r.instant
      · rw [admittedWithin_cons_of_le hlate]
        exact ih hordered.2 h.2
      · have hself : ∀ s ∈ r :: rs, s.instant ≤ r.instant := by
          intro s hs
          rcases List.mem_cons.mp hs with rfl | hs
          · exact Nat.le_refl _
          · exact hordered.1 s hs
        have hopened : opening length r.instant (r :: rs) ≤ since + length :=
          Nat.le_trans (opening_le hself hrs) (Nat.le_of_not_le hlate)
        have hbefore := h.admittedWithin_opening_le hlength hrs hopened
        have hafter : admittedSince (opening length r.instant (r :: rs)) (r :: rs) ≤ limit :=
          h.count_le hlength hrs
        have hsplit := admittedWithin_le_add since (opening length r.instant (r :: rs))
          (since + length) (r :: rs)
        omega

end Windows

/-! The limiter keeps these windows. -/

/-- The instants of a run never go back. -/
def IsTimely (run : List (Nat × Call)) : Prop :=
  run.Pairwise fun later earlier => earlier.1 ≤ later.1

theorem exists_of_mem_rulings {key : String} {run : List (Nat × Call)} {r : Ruling}
    (h : r ∈ rulings key run) : ∃ entry ∈ run, entry.1 = r.instant := by
  induction run with
  | nil => exact absurd h List.not_mem_nil
  | cons entry earlier ih =>
      have hold : r ∈ rulings key earlier → ∃ e ∈ entry :: earlier, e.1 = r.instant := by
        intro hr
        obtain ⟨e, he, hinstant⟩ := ih hr
        exact ⟨e, List.mem_cons_of_mem _ he, hinstant⟩
      rcases entry with ⟨now, ⟨other, perMinute, perHour⟩ | _ | _⟩
      · by_cases hother : other = key
        · simp only [rulings, if_pos hother, List.mem_cons] at h
          rcases h with rfl | h
          · exact ⟨_, List.mem_cons_self, rfl⟩
          · exact hold h
        · simp only [rulings, if_neg hother] at h
          exact hold h
      · exact hold h
      · exact hold h

theorem rulings_instant_le {key : String} {run : List (Nat × Call)} {now : Nat}
    (h : ∀ entry ∈ run, entry.1 ≤ now) : ∀ r ∈ rulings key run, r.instant ≤ now := by
  intro r hr
  obtain ⟨entry, hentry, hinstant⟩ := exists_of_mem_rulings hr
  exact hinstant ▸ h entry hentry

theorem inOrder_rulings {run : List (Nat × Call)} (h : IsTimely run) (key : String) :
    InOrder (rulings key run) := by
  induction run with
  | nil => exact List.Pairwise.nil
  | cons entry earlier ih =>
      have hordered := List.pairwise_cons.mp h
      rcases entry with ⟨now, ⟨other, perMinute, perHour⟩ | _ | _⟩
      · by_cases hother : other = key
        · simp only [rulings, if_pos hother]
          exact List.pairwise_cons.mpr ⟨rulings_instant_le hordered.1, ih hordered.2⟩
        · simp only [rulings, if_neg hother]
          exact ih hordered.2
      · exact ih hordered.2
      · exact ih hordered.2

theorem minute_pos : 0 < Window.minute := by decide

theorem hour_pos : 0 < Window.hour := by decide

theorem settled_eq (l : Limiter) (key : String) (perMinute perHour now : Nat) :
    l.settled key perMinute perHour now =
      ⟨if (l.allow key perMinute perHour now).1 then (l.standing key now).minute.counted
          else (l.standing key now).minute,
        if (l.allow key perMinute perHour now).1 then (l.standing key now).hour.counted
          else (l.standing key now).hour⟩ := by
  rw [allow_eq, settled]
  split
  · rfl
  · rfl

/-- What the limiter judges a key by is what the history of the key says. -/
theorem standing_ofRun {run : List (Nat × Call)} (h : IsTimely run) (key : String) {now : Nat}
    (hnow : ∀ entry ∈ run, entry.1 ≤ now) :
    (ofRun run).standing key now =
      ⟨windowAt Window.minute now (rulings key run), windowAt Window.hour now (rulings key run)⟩ := by
  induction run generalizing now with
  | nil => exact Counter.current_start
  | cons entry earlier ih =>
      have hordered := List.pairwise_cons.mp h
      have hearlier := ih hordered.2 (List.forall_mem_cons.mp hnow).2
      rcases entry with ⟨t, ⟨other, perMinute, perHour⟩ | _ | _⟩
      · by_cases hother : other = key
        · subst hother
          have hrs := inOrder_rulings h other
          simp only [rulings, if_true] at hrs ⊢
          simp only [ofRun, after, standing_allow_self, settled_eq, Counter.current,
            ih hordered.2 hordered.1]
          rw [← current_windowAt minute_pos hrs, ← current_windowAt hour_pos hrs]
        · simp only [ofRun, after, rulings, if_neg hother]
          rw [standing_allow_of_ne (fun e => hother e.symm), hearlier]
      · exact hearlier
      · have ht : t ≤ now := (List.forall_mem_cons.mp hnow).1
        simp only [ofRun, after, rulings]
        rw [standing_sweep (isKeyed_ofRun earlier) ht, hearlier]

def HasLimits (key : String) (perMinute perHour : Nat) (run : List (Nat × Call)) : Prop :=
  ∀ now m h, (now, .allow key m h) ∈ run → m = perMinute ∧ h = perHour

variable {key : String} {perMinute perHour : Nat} {run : List (Nat × Call)}

theorem isFull_eq_false_iff {w : Window} {limit : Nat} (hlimit : 0 < limit) :
    w.isFull limit = false ↔ w.count < limit := by
  simp [Window.isFull, hlimit]

/-- A request is let in only below both limits. -/
theorem lt_of_allow {l : Limiter} {now : Nat} (h : (l.allow key perMinute perHour now).1 = true) :
    (0 < perMinute → (l.standing key now).minute.count < perMinute) ∧
      (0 < perHour → (l.standing key now).hour.count < perHour) := by
  rw [allow_eq] at h
  simp only [admits, Bool.not_eq_true', Bool.or_eq_false_iff] at h
  exact ⟨fun hm => (isFull_eq_false_iff hm).mp h.1, fun hh => (isFull_eq_false_iff hh).mp h.2⟩

theorem obeys_rulings (htimely : IsTimely run) (hlimits : HasLimits key perMinute perHour run) :
    (0 < perMinute → Obeys Window.minute perMinute (rulings key run)) ∧
      (0 < perHour → Obeys Window.hour perHour (rulings key run)) := by
  induction run with
  | nil => exact ⟨fun _ => trivial, fun _ => trivial⟩
  | cons entry earlier ih =>
      have hordered := List.pairwise_cons.mp htimely
      have hearlier := ih hordered.2 fun now m h he => hlimits now m h (List.mem_cons_of_mem _ he)
      rcases entry with ⟨now, ⟨other, m, h⟩ | _ | _⟩
      · by_cases hother : other = key
        · subst hother
          obtain ⟨rfl, rfl⟩ := hlimits now m h List.mem_cons_self
          have hcounts := @lt_of_allow other m h (ofRun earlier) now
          simp only [standing_ofRun hordered.2 other hordered.1] at hcounts
          simp only [rulings, if_true]
          exact ⟨fun hm => ⟨fun ha => (hcounts ha).1 hm, hearlier.1 hm⟩,
            fun hh => ⟨fun ha => (hcounts ha).2 hh, hearlier.2 hh⟩⟩
        · simp only [rulings, if_neg hother]
          exact hearlier
      · exact hearlier
      · exact hearlier

/-- A window that never holds more than its limit is full when it holds just that. -/
theorem isFull_iff {w : Window} {limit : Nat} (h : 0 < limit → w.count ≤ limit) :
    w.isFull limit = true ↔ 0 < limit ∧ w.count = limit := by
  simp only [Window.isFull, Bool.and_eq_true, decide_eq_true_eq]
  constructor
  · rintro ⟨hlimit, hle⟩
    exact ⟨hlimit, Nat.le_antisymm (h hlimit) hle⟩
  · rintro ⟨hlimit, heq⟩
    exact ⟨hlimit, Nat.le_of_eq heq.symm⟩

/-- The limiter keeps to its history.  In a run whose instants never go back and in which a key always
comes with the same limits, whatever other keys ask and however often the limiter is swept, a request
of the key is kept out exactly when its current window of a minute, or of an hour, has let in the
limit; so no minute lets in more than twice the limit of a minute, and no hour more than twice that
of an hour. -/
theorem allow_eq_false_iff_windows (htimely : IsTimely run)
    (hlimits : HasLimits key perMinute perHour run) :
    (∀ later now earlier, run = later ++ (now, .allow key perMinute perHour) :: earlier →
      (((ofRun earlier).allow key perMinute perHour now).1 = false ↔
        (0 < perMinute ∧
          admittedSince (opening Window.minute now (rulings key earlier)) (rulings key earlier) =
            perMinute) ∨
        (0 < perHour ∧
          admittedSince (opening Window.hour now (rulings key earlier)) (rulings key earlier) =
            perHour))) ∧
    (0 < perMinute → ∀ since,
      admittedWithin since (since + Window.minute) (rulings key run) ≤ 2 * perMinute) ∧
    (0 < perHour → ∀ since,
      admittedWithin since (since + Window.hour) (rulings key run) ≤ 2 * perHour) := by
  have hrs := inOrder_rulings htimely key
  obtain ⟨hminute, hhour⟩ := obeys_rulings htimely hlimits
  refine ⟨?_, ?_, ?_⟩
  · rintro later now earlier rfl
    have hordered := List.pairwise_cons.mp (List.pairwise_append.mp htimely).2.1
    have hsame : HasLimits key perMinute perHour earlier := by
      intro t m h he
      exact hlimits t m h (List.mem_append_right _ (List.mem_cons_of_mem _ he))
    obtain ⟨hm, hh⟩ := obeys_rulings hordered.2 hsame
    have hinOrder := inOrder_rulings hordered.2 key
    rw [allow_eq]
    simp only [admits, standing_ofRun hordered.2 key hordered.1, Bool.not_eq_false',
      Bool.or_eq_true]
    rw [isFull_iff fun hpos => (hm hpos).count_le minute_pos hinOrder,
      isFull_iff fun hpos => (hh hpos).count_le hour_pos hinOrder]
    rfl
  · intro hpos since
    exact (hminute hpos).admittedWithin_le_two_mul minute_pos hrs since
  · intro hpos since
    exact (hhour hpos).admittedWithin_le_two_mul hour_pos hrs since

/-- One key under limits of one a minute and two an hour, with another key and a sweep between. -/
def traffic : List (Nat × Call) :=
  [(121000, .allow "k" 1 2), (60000, .allow "k" 1 2), (59999, .sweep), (59000, .allow "other" 5 5),
    (500, .allow "k" 1 2), (0, .allow "k" 1 2)]

/-- The second request of the minute and the third of the hour are kept out. -/
theorem refuses_second_of_minute_and_third_of_hour :
    IsTimely traffic ∧ HasLimits "k" 1 2 traffic ∧
      ((ofRun [(0, .allow "k" 1 2)]).allow "k" 1 2 500).1 = false ∧
      ((ofRun (traffic.drop 1)).allow "k" 1 2 121000).1 = false ∧
      admittedWithin 1 (1 + Window.minute) (rulings "k" traffic) ≤ 2 * 1 := by
  have htimely : IsTimely traffic := by
    unfold IsTimely
    decide
  have hlimits : HasLimits "k" 1 2 traffic := by
    intro now m h hmem
    simp only [traffic, List.mem_cons, List.not_mem_nil, Prod.mk.injEq, Call.allow.injEq,
      reduceCtorEq, and_false, or_false, false_or] at hmem
    rcases hmem with ⟨-, -, hm, hh⟩ | ⟨-, -, hm, hh⟩ | ⟨-, hkey, -⟩ | ⟨-, -, hm, hh⟩ | ⟨-, -, hm, hh⟩
    · exact ⟨hm, hh⟩
    · exact ⟨hm, hh⟩
    · exact absurd hkey (by decide)
    · exact ⟨hm, hh⟩
    · exact ⟨hm, hh⟩
  obtain ⟨hkept, hminute, -⟩ := allow_eq_false_iff_windows htimely hlimits
  have hsecond := (hkept (traffic.take 4) 500 [(0, .allow "k" 1 2)] rfl).mpr
    (.inl ⟨by decide, by decide +kernel⟩)
  have hthird := (hkept [] 121000 (traffic.drop 1) rfl).mpr (.inr ⟨by decide, by decide +kernel⟩)
  exact ⟨htimely, hlimits, hsecond, hthird, hminute (by decide) 1⟩

end Limiter

end Mailroom
