import Mathlib.Algebra.Ring.Nat
import Mailroom.Routing.Selection

/-!
Where the strategies point.  Buckets lie side by side on a line, and a strategy that chooses again
and again goes through its servers in a fixed order.  Main statement: at every turn it chooses the
server that its order has there, and moves on to the next turn.
-/

namespace Mailroom

variable {widths weights : List Nat} {point place : Nat}

/-- A point lies in the bucket of a place: behind all buckets before it, and not behind it. -/
structure InBucket (widths : List Nat) (point place : Nat) : Prop where
  lower : (widths.take place).sum ≤ point
  upper : point < (widths.take (place + 1)).sum

namespace InBucket

theorem cons_zero_iff {width : Nat} : InBucket (width :: widths) point 0 ↔ point < width := by
  constructor
  · intro h
    simpa using h.upper
  · intro h
    exact ⟨by simp, by simpa using h⟩

theorem cons_succ_iff {width : Nat} :
    InBucket (width :: widths) point (place + 1) ↔
      width ≤ point ∧ InBucket widths (point - width) place := by
  constructor
  · rintro ⟨hlower, hupper⟩
    simp only [List.take_succ_cons, List.sum_cons] at hlower hupper
    exact ⟨by omega, by omega, by omega⟩
  · rintro ⟨hwidth, hlower, hupper⟩
    constructor <;> simp only [List.take_succ_cons, List.sum_cons] <;> omega

theorem lt_length (h : InBucket widths point place) : place < widths.length := by
  by_contra hplace
  obtain ⟨hlower, hupper⟩ := h
  rw [List.take_of_length_le (by omega)] at hlower hupper
  omega

end InBucket

theorem totalWidth_eq_sum (widths : List Nat) : totalWidth widths = widths.sum := rfl

theorem bucketOf_eq_some_iff :
    bucketOf widths point = some place ↔ InBucket widths point place := by
  induction widths generalizing point place with
  | nil =>
      constructor
      · intro h
        cases h
      · intro h
        exact absurd h.lt_length (Nat.not_lt_zero place)
  | cons width rest ih =>
      cases place with
      | zero =>
          rw [InBucket.cons_zero_iff]
          by_cases h : point < width <;> simp [bucketOf, h]
      | succ place =>
          rw [InBucket.cons_succ_iff, ← ih]
          by_cases h : point < width
          · have hnot : ¬ width ≤ point := by omega
            simp [bucketOf, h, hnot]
          · have hle : width ≤ point := by omega
            simp [bucketOf, h, hle]

/-- Every point below the total width lies in a bucket. -/
theorem exists_inBucket (h : point < widths.sum) : ∃ place, InBucket widths point place := by
  cases hplace : bucketOf widths point with
  | none =>
      rw [bucketOf_eq_none_iff, totalWidth_eq_sum] at hplace
      omega
  | some place => exact ⟨place, bucketOf_eq_some_iff.1 hplace⟩

namespace Selection

theorem length_weightsFor (weights : List Nat) (count : Nat) :
    (weightsFor weights count).length = count := by
  simp [weightsFor]

/-- Nothing is missing or left over when there is one weight for each server. -/
theorem weightsFor_length (weights : List Nat) : weightsFor weights weights.length = weights := by
  apply List.ext_getElem (length_weightsFor _ _)
  intro i _ hi
  simp [weightsFor, hi]

end Selection

/-- The order in which a strategy goes through so many servers. -/
def Strategy.placeAt (strategy : Strategy) (count turn : Nat) : Nat :=
  match strategy with
  | .roundRobin => turn % count
  | .firstHealthy => 0
  | .weighted weights =>
      let widths := Selection.weightsFor weights count
      (bucketOf widths (turn % widths.sum)).getD 0

namespace Strategy

variable {count turn : Nat}

theorem placeAt_of_sum_eq_zero (h : (Selection.weightsFor weights count).sum = 0) :
    (Strategy.weighted weights).placeAt count turn = 0 := by
  have hnone : bucketOf (Selection.weightsFor weights count) turn = none := by
    rw [bucketOf_eq_none_iff, totalWidth_eq_sum, h]
    exact Nat.zero_le turn
  simp [placeAt, h, hnone]

theorem inBucket_placeAt (turn : Nat) (h : 0 < (Selection.weightsFor weights count).sum) :
    InBucket (Selection.weightsFor weights count)
      (turn % (Selection.weightsFor weights count).sum)
      ((Strategy.weighted weights).placeAt count turn) := by
  obtain ⟨place, hplace⟩ := exists_inBucket (Nat.mod_lt turn h)
  have hbucket := bucketOf_eq_some_iff.2 hplace
  simpa [placeAt, hbucket] using hplace

theorem placeAt_lt (strategy : Strategy) (turn : Nat) (hcount : 0 < count) :
    strategy.placeAt count turn < count := by
  cases strategy with
  | roundRobin => exact Nat.mod_lt turn hcount
  | firstHealthy => exact hcount
  | weighted weights =>
      rcases Nat.eq_zero_or_pos (Selection.weightsFor weights count).sum with hzero | hpos
      · rw [placeAt_of_sum_eq_zero hzero]
        exact hcount
      · have hplace := (inBucket_placeAt turn hpos).lt_length
        rwa [Selection.length_weightsFor] at hplace

end Strategy

namespace Selection

variable {s : Selection} {strategy : Strategy} {key : String} {servers : List String} {turn : Nat}

/-- The counters as they are when a key has had so many turns with so many servers. -/
def IsAt (s : Selection) (strategy : Strategy) (key : String) (count turn : Nat) : Prop :=
  2 ≤ count →
    match strategy with
    | .roundRobin => s.turnsOf key = UInt64.ofNat turn
    | .firstHealthy => True
    | .weighted weights =>
        0 < (weightsFor weights count).sum →
          s.point.toNat = turn % (weightsFor weights count).sum

theorem isAt_initial (strategy : Strategy) (key : String) (count : Nat) :
    initial.IsAt strategy key count 0 := by
  intro _
  cases strategy with
  | roundRobin => rfl
  | firstHealthy => trivial
  | weighted weights =>
      intro _
      simp [initial]

theorem select_roundRobin (hservers : 2 ≤ servers.length) :
    s.select .roundRobin key servers =
      (some ((s.turnsOf key).toNat % servers.length),
        { s with turns := Bindings.put key (s.turnsOf key + 1) s.turns }) := by
  match servers, hservers with
  | _ :: _ :: _, _ => rfl

theorem select_weighted (hservers : 2 ≤ servers.length) :
    s.select (.weighted weights) key servers =
      (some (s.byWeight weights servers.length).1, (s.byWeight weights servers.length).2) := by
  match servers, hservers with
  | _ :: _ :: _, _ => rfl

theorem select_firstHealthy (hservers : servers ≠ []) :
    s.select .firstHealthy key servers = (some 0, s) := by
  match servers, hservers with
  | [_], _ => rfl
  | _ :: _ :: _, _ => rfl

theorem byWeight_lt (s : Selection) (weights : List Nat) {count : Nat}
    (hcount : 0 < count) : (s.byWeight weights count).1 < count := by
  unfold byWeight
  dsimp only
  split
  · exact hcount
  · cases hplace : bucketOf (weightsFor weights count) _ with
    | none => exact Nat.sub_lt hcount Nat.one_pos
    | some place =>
        have hlt := (bucketOf_eq_some_iff.1 hplace).lt_length
        rwa [length_weightsFor] at hlt

/-- Whatever was counted before, one of the servers is chosen. -/
theorem exists_select (s : Selection) (strategy : Strategy) (key : String)
    (hservers : servers ≠ []) :
    ∃ place, (s.select strategy key servers).1 = some place ∧ place < servers.length := by
  have hlength : 0 < servers.length := List.length_pos_iff.2 hservers
  by_cases hmany : 2 ≤ servers.length
  · cases strategy with
    | roundRobin =>
        rw [select_roundRobin hmany]
        exact ⟨_, rfl, Nat.mod_lt _ hlength⟩
    | firstHealthy =>
        rw [select_firstHealthy hservers]
        exact ⟨0, rfl, hlength⟩
    | weighted weights =>
        rw [select_weighted hmany]
        exact ⟨_, rfl, s.byWeight_lt weights hlength⟩
  · match servers, hservers, hmany with
    | [_], _, _ => exact ⟨0, rfl, Nat.one_pos⟩
    | _ :: _ :: _, _, hmany => exact absurd (by simp) hmany

theorem turnsOf_put (key : String) (count : UInt64) :
    Selection.turnsOf { s with turns := Bindings.put key count s.turns } key = count := by
  simp [turnsOf, Bindings.lookup_put]

/-- Weights that add up to something have buckets for the counter wherever it stands. -/
theorem byWeight_of_pos {count : Nat} (hpos : 0 < (weightsFor weights count).sum)
    (hpoint : s.point.toNat = turn % (weightsFor weights count).sum) :
    s.byWeight weights count =
      ((Strategy.weighted weights).placeAt count turn,
        { s with
          point := UInt64.ofNat ((s.point.toNat + 1) % (weightsFor weights count).sum) }) := by
  have hne : (weightsFor weights count).sum ≠ 0 := by omega
  have hbucket := bucketOf_eq_some_iff.2 (Strategy.inBucket_placeAt turn hpos)
  simp only [byWeight, totalWidth_eq_sum, hne, if_false, hpoint, Nat.mod_mod, hbucket,
    Option.getD_some]

theorem byWeight_of_zero {count : Nat} (hzero : (weightsFor weights count).sum = 0) :
    s.byWeight weights count = (0, s) := by
  simp [byWeight, totalWidth_eq_sum, hzero]

/-- The counter of all keys does not overflow before the turns do. -/
theorem point_succ {total : Nat} (hpoint : s.point.toNat = turn % total)
    (hturn : turn + 1 < 2 ^ 64) :
    (UInt64.ofNat ((s.point.toNat + 1) % total)).toNat = (turn + 1) % total := by
  have hsame : (s.point.toNat + 1) % total = (turn + 1) % total := by
    rw [hpoint, Nat.mod_add_mod]
  have hle : (turn + 1) % total ≤ turn + 1 := Nat.mod_le _ _
  rw [hsame, UInt64.toNat_ofNat']
  exact Nat.mod_eq_of_lt (by omega)

/-- At every turn a strategy chooses the server that its order has there, and it moves on to the
next turn. -/
theorem select_isAt (hs : s.IsAt strategy key servers.length turn) (hservers : servers ≠ [])
    (hturn : turn + 1 < 2 ^ 64) :
    (s.select strategy key servers).1 = some (strategy.placeAt servers.length turn) ∧
      (s.select strategy key servers).2.IsAt strategy key servers.length (turn + 1) := by
  by_cases hmany : 2 ≤ servers.length
  · have hat := hs hmany
    cases strategy with
    | roundRobin =>
        have hcount : s.turnsOf key = UInt64.ofNat turn := hat
        have hnat : (UInt64.ofNat turn).toNat = turn := by
          rw [UInt64.toNat_ofNat']
          exact Nat.mod_eq_of_lt (by omega)
        rw [select_roundRobin hmany, hcount, hnat]
        refine ⟨rfl, fun _ => ?_⟩
        rw [turnsOf_put]
        simp
    | firstHealthy =>
        rw [select_firstHealthy hservers]
        exact ⟨rfl, fun _ => trivial⟩
    | weighted weights =>
        rw [select_weighted hmany]
        rcases Nat.eq_zero_or_pos (weightsFor weights servers.length).sum with hzero | hpos
        · rw [byWeight_of_zero hzero, Strategy.placeAt_of_sum_eq_zero hzero]
          exact ⟨rfl, fun _ hpos => absurd hzero (Nat.ne_of_gt hpos)⟩
        · rw [byWeight_of_pos hpos (hat hpos)]
          exact ⟨rfl, fun _ _ => point_succ (hat hpos) hturn⟩
  · obtain ⟨server, rfl⟩ : ∃ server, servers = [server] := by
      match servers, hservers, hmany with
      | [server], _, _ => exact ⟨server, rfl⟩
      | _ :: _ :: _, _, hmany => exact absurd (by simp) hmany
    have hplace : strategy.placeAt 1 turn = 0 :=
      Nat.lt_one_iff.1 (strategy.placeAt_lt turn Nat.one_pos)
    refine ⟨?_, fun hmany => absurd hmany (by simp)⟩
    rw [List.length_singleton, hplace]
    rfl

end Selection

end Mailroom
