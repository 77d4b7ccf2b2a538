import Mathlib.Data.Int.CardIntervalMod
import Mailroom.Proofs.Routing.Selection

/-!
Runs of choices.  Many keys choose by many strategies with the same counters, and a key that takes
turns is to notice nothing of the others.  Main statement: whatever is chosen in between, the turns of
a key go through the places of its servers in order, so that any stretch of them favours no place by
more than one.
-/

namespace Mailroom

/-- A server is to be chosen for a key out of some. -/
structure Choice where
  strategy : Strategy
  key : String
  servers : List String
deriving DecidableEq, Repr

/-- Whether a choice takes a turn of a key; with one server or none there is nothing to take. -/
def Choice.takesTurn (key : String) (c : Choice) : Bool :=
  c.strategy == .roundRobin && c.key == key && 2 ≤ c.servers.length

namespace Selection

variable {s : Selection} {key : String} {c : Choice} {run : List Choice}

/-- Make a choice and move the counters on. -/
def choose (s : Selection) (c : Choice) : Option Nat × Selection :=
  s.select c.strategy c.key c.servers

/-- What is picked in a run of choices, the earliest first. -/
def picks (s : Selection) : List Choice → List (Choice × Option Nat)
  | [] => []
  | c :: later => (c, (s.choose c).1) :: (s.choose c).2.picks later

/-- What is picked in a run when a key has its turns. -/
def turnPicks (s : Selection) (key : String) (run : List Choice) : List (Choice × Option Nat) :=
  (s.picks run).filter fun pick => pick.1.takesTurn key

theorem turns_byWeight (s : Selection) (weights : List Nat) (count : Nat) :
    (s.byWeight weights count).2.turns = s.turns := by
  rw [byWeight]
  dsimp only
  split
  · rfl
  · rfl

theorem turnsOf_put_of_ne {other : String} (h : other ≠ key) (count : UInt64) :
    Selection.turnsOf { s with turns := Bindings.put key count s.turns } other = s.turnsOf other := by
  simp [turnsOf, Bindings.lookup_put, h]

/-- A turn goes to the place that the counter of the key points at, and moves it on by one. -/
theorem choose_of_takesTurn (h : c.takesTurn key = true) :
    (s.choose c).1 = some ((s.turnsOf key).toNat % c.servers.length) ∧
      (s.choose c).2.turnsOf key = s.turnsOf key + 1 := by
  obtain ⟨strategy, other, servers⟩ := c
  simp only [Choice.takesTurn, Bool.and_eq_true, beq_iff_eq, decide_eq_true_eq] at h
  obtain ⟨⟨rfl, rfl⟩, hmany⟩ := h
  rw [choose, select_roundRobin hmany]
  exact ⟨rfl, turnsOf_put other _⟩

/-- Any other choice leaves the counter of the key alone. -/
theorem turnsOf_choose_of_not_takesTurn (h : ¬ c.takesTurn key = true) :
    (s.choose c).2.turnsOf key = s.turnsOf key := by
  obtain ⟨strategy, other, servers⟩ := c
  match servers with
  | [] => rfl
  | [_] => rfl
  | first :: second :: rest =>
      have hmany : 2 ≤ (first :: second :: rest).length := by simp
      cases strategy with
      | firstHealthy => rfl
      | roundRobin =>
          have hother : key ≠ other := by
            rintro rfl
            exact h (by simp [Choice.takesTurn])
          rw [choose, select_roundRobin hmany]
          exact turnsOf_put_of_ne hother _
      | weighted weights =>
          rw [choose, select_weighted hmany, turnsOf, turns_byWeight, turnsOf]

theorem turnPicks_cons_of_takesTurn (h : c.takesTurn key = true) :
    s.turnPicks key (c :: run) = (c, (s.choose c).1) :: (s.choose c).2.turnPicks key run :=
  List.filter_cons_of_pos h

theorem turnPicks_cons_of_not_takesTurn (h : ¬ c.takesTurn key = true) :
    s.turnPicks key (c :: run) = (s.choose c).2.turnPicks key run :=
  List.filter_cons_of_neg h

/-- The turns of a key in a run are the choices that take one. -/
theorem map_turnPicks (s : Selection) (key : String) (run : List Choice) :
    (s.turnPicks key run).map Prod.fst = run.filter (Choice.takesTurn key) := by
  induction run generalizing s with
  | nil => rfl
  | cons c run ih =>
      by_cases h : c.takesTurn key = true
      · rw [turnPicks_cons_of_takesTurn h, List.filter_cons_of_pos h, List.map_cons, ih]
      · rw [turnPicks_cons_of_not_takesTurn h, List.filter_cons_of_neg h, ih]

/-- Each turn of a key goes to the place that its number points at, among as many servers as it is
taken with; the numbers begin where the counter stood, and begin anew at zero when it is full. -/
theorem pick_of_getElem?_turnPicks {j : Nat} {pick : Option Nat}
    (h : (s.turnPicks key run)[j]? = some (c, pick)) :
    pick = some (((s.turnsOf key).toNat + j) % 2 ^ 64 % c.servers.length) := by
  induction run generalizing s j with
  | nil => cases h
  | cons first run ih =>
      by_cases hfirst : first.takesTurn key = true
      · obtain ⟨hpick, hturns⟩ := choose_of_takesTurn (s := s) hfirst
        rw [turnPicks_cons_of_takesTurn hfirst] at h
        cases j with
        | zero =>
            obtain ⟨rfl, rfl⟩ := Prod.mk.inj (Option.some.inj h)
            rw [hpick, Nat.add_zero, Nat.mod_eq_of_lt (s.turnsOf key).toNat_lt]
        | succ j =>
            have hnext : ((s.turnsOf key + 1).toNat + j) % 2 ^ 64 =
                ((s.turnsOf key).toNat + (j + 1)) % 2 ^ 64 := by
              have hone : (1 : UInt64).toNat = 1 := rfl
              rw [UInt64.toNat_add, Nat.mod_add_mod, hone, Nat.add_assoc, Nat.add_comm 1 j]
            rw [ih h, hturns, hnext]
      · rw [turnPicks_cons_of_not_takesTurn hfirst] at h
        rw [ih h, turnsOf_choose_of_not_takesTurn hfirst]

/-- With as many servers at each turn, and a counter that does not get full, the turns of a key go
through the places in order. -/
theorem map_snd_turnPicks {n : Nat}
    (hrun : ∀ c ∈ run, c.takesTurn key = true → c.servers.length = n)
    (hturns : (s.turnsOf key).toNat + run.countP (Choice.takesTurn key) < 2 ^ 64) :
    (s.turnPicks key run).map Prod.snd =
      (List.range (run.countP (Choice.takesTurn key))).map fun j =>
        some (((s.turnsOf key).toNat + j) % n) := by
  have hlength : (s.turnPicks key run).length = run.countP (Choice.takesTurn key) := by
    rw [List.countP_eq_length_filter, ← map_turnPicks s key run, List.length_map]
  apply List.ext_getElem (by simp [hlength])
  intro j hj _
  rw [List.length_map] at hj
  obtain ⟨⟨c, pick⟩, hpick⟩ : ∃ p, (s.turnPicks key run)[j] = p := ⟨_, rfl⟩
  have hmem : c ∈ run.filter (Choice.takesTurn key) := by
    rw [← map_turnPicks s key run]
    exact List.mem_map.2 ⟨(c, pick), hpick ▸ List.getElem_mem hj, rfl⟩
  obtain ⟨hc, htakes⟩ := List.mem_filter.1 hmem
  have hplace := pick_of_getElem?_turnPicks (List.getElem?_eq_some_iff.2 ⟨hj, hpick⟩)
  have hbound : (s.turnsOf key).toNat + j < 2 ^ 64 := by omega
  rw [Nat.mod_eq_of_lt hbound, hrun c hc htakes] at hplace
  simp [hpick, hplace]

end Selection

section Balance

variable {n i k start length : Nat}

/-- How often consecutive numbers leave a remainder, from how many below their ends do. -/
theorem count_remainder_add (hi : i < n) (start length : Nat) :
    Nat.count (fun j => (start + j) % n = i) length +
        (start / n + if i < start % n then 1 else 0) =
      (start + length) / n + if i < (start + length) % n then 1 else 0 := by
  have hn : 0 < n := by omega
  have hbelow : ∀ stop, Nat.count (fun j => j % n = i) stop =
      stop / n + if i < stop % n then 1 else 0 := by
    intro stop
    have hcount := Nat.count_modEq_card stop hn i
    simpa only [Nat.ModEq, Nat.mod_eq_of_lt hi] using hcount
  rw [← hbelow start, ← hbelow (start + length), Nat.count_add, Nat.add_comm]

/-- Among consecutive numbers no remainder comes up more than once more often than another. -/
theorem count_remainder_le (hi : i < n) (hk : k < n) (start length : Nat) :
    Nat.count (fun j => (start + j) % n = i) length ≤
      Nat.count (fun j => (start + j) % n = k) length + 1 := by
  have hcounti := count_remainder_add hi start length
  have hcountk := count_remainder_add hk start length
  split_ifs at hcounti hcountk <;> omega

/-- A stretch of values at consecutive numbers is one itself. -/
theorem exists_of_isInfix_map_range {α : Type} {f : Nat → α} {m : Nat} {stretch : List α}
    (h : stretch <:+: (List.range m).map f) :
    ∃ start, stretch = (List.range stretch.length).map fun j => f (start + j) := by
  obtain ⟨start, -, hvalues⟩ := List.infix_iff_getElem?.1 h
  refine ⟨start, List.ext_getElem (by simp) fun j hj _ => ?_⟩
  have hvalue := hvalues j hj
  rw [List.getElem?_map, Option.map_eq_some_iff] at hvalue
  obtain ⟨number, hnumber, hsame⟩ := hvalue
  obtain ⟨_, hplace⟩ := List.getElem?_eq_some_iff.1 hnumber
  rw [List.getElem_range] at hplace
  simp [← hsame, ← hplace, Nat.add_comm]

end Balance

namespace Selection

variable {s : Selection} {key : String} {run : List Choice} {n : Nat}

/-- Turns of a key are exact, and nothing else disturbs them.  In any run of choices in which the key
takes its turns with as many servers each time, whatever other keys, other strategies and lists of at
most one server come between, its turns go through the places in order, beginning where the counter of
the key stood; so no stretch of them goes to one place more than once more often than to another. -/
theorem turns_exact (hrun : ∀ c ∈ run, c.takesTurn key = true → c.servers.length = n)
    (hturns : (s.turnsOf key).toNat + run.countP (Choice.takesTurn key) < 2 ^ 64) :
    (s.turnPicks key run).map Prod.fst = run.filter (Choice.takesTurn key) ∧
    (s.turnPicks key run).map Prod.snd =
      (List.range (run.countP (Choice.takesTurn key))).map (fun j =>
        some (((s.turnsOf key).toNat + j) % n)) ∧
    ∀ stretch, stretch <:+: (s.turnPicks key run).map Prod.snd → ∀ i < n, ∀ k < n,
      stretch.count (some i) ≤ stretch.count (some k) + 1 := by
  have hpicks := map_snd_turnPicks hrun hturns
  refine ⟨map_turnPicks s key run, hpicks, ?_⟩
  intro stretch hstretch i hi k hk
  rw [hpicks] at hstretch
  obtain ⟨start, hvalues⟩ := exists_of_isInfix_map_range hstretch
  have hcount : ∀ place, stretch.count (some place) =
      Nat.count (fun j => ((s.turnsOf key).toNat + start + j) % n = place) stretch.length := by
    intro place
    rw [hvalues, List.count, List.countP_map, Nat.count, List.length_map, List.length_range]
    apply List.countP_congr
    intro j _
    simp [Nat.add_assoc]
  rw [hcount i, hcount k]
  exact count_remainder_le hi hk _ _

/-- A key with a counter that is nearly full. -/
def worn : Selection := ⟨[("other", 5), ("busy", 18446744073709551612)], 7⟩

/-- Three turns of the key, and five choices that are none of them. -/
def rush : List Choice :=
  [⟨.roundRobin, "busy", ["a", "b", "c"]⟩, ⟨.weighted [2, 1, 0], "busy", ["a", "b", "c"]⟩,
    ⟨.roundRobin, "other", ["a", "b"]⟩, ⟨.roundRobin, "busy", ["b"]⟩,
    ⟨.roundRobin, "busy", ["a", "b", "c"]⟩, ⟨.firstHealthy, "busy", ["a", "b", "c"]⟩,
    ⟨.roundRobin, "busy", []⟩, ⟨.roundRobin, "busy", ["d", "e", "f"]⟩]

/-- The three turns go to the three places, and the last two of them to different ones. -/
theorem rush_in_turn :
    (∀ c ∈ rush, c.takesTurn "busy" = true → c.servers.length = 3) ∧
      (worn.turnsOf "busy").toNat + rush.countP (Choice.takesTurn "busy") = 2 ^ 64 - 1 ∧
      (worn.turnPicks "busy" rush).map Prod.snd = [some 0, some 1, some 2] ∧
      [some 1, some 2].count (some 1) ≤ [some 1, some 2].count (some 0) + 1 := by
  have hrun : ∀ c ∈ rush, c.takesTurn "busy" = true → c.servers.length = 3 := by decide
  have hsum : (worn.turnsOf "busy").toNat + rush.countP (Choice.takesTurn "busy") = 2 ^ 64 - 1 := by
    decide +kernel
  obtain ⟨-, hpicks, hbalance⟩ := turns_exact (s := worn) hrun (by omega)
  have hplaces : (worn.turnPicks "busy" rush).map Prod.snd = [some 0, some 1, some 2] := by
    rw [hpicks]
    decide +kernel
  refine ⟨hrun, hsum, hplaces, hbalance _ ?_ 1 (by decide) 0 (by decide)⟩
  rw [hplaces]
  exact ⟨[some 0], [], rfl⟩

end Selection

end Mailroom
