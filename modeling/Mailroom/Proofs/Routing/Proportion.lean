import Mathlib.Algebra.Order.BigOperators.Group.List
import Mailroom.Proofs.Routing.Turns

/-!
Choices by weight.  All of them share one counter, and a choice takes what is left of it when it is
divided by the total weight.  Main statement: choices of one kind in a row go through the points of
their buckets in order, so that as many of them as all weights together choose each server exactly
as often as its weight says.
-/

namespace Mailroom

section Points

variable {widths : List Nat} {point place : Nat}

theorem InBucket.unique {other : Nat} (h : InBucket widths point place)
    (h' : InBucket widths point other) : place = other :=
  Option.some.inj ((bucketOf_eq_some_iff.2 h).symm.trans (bucketOf_eq_some_iff.2 h'))

theorem inBucket_iff (hplace : place < widths.length) :
    InBucket widths point place ↔
      (widths.take place).sum ≤ point ∧ point < (widths.take place).sum + widths[place] := by
  rw [← List.sum_take_succ _ _ hplace]
  exact ⟨fun h => ⟨h.lower, h.upper⟩, fun h => ⟨h.1, h.2⟩⟩

/-- A bucket without a width holds no point. -/
theorem InBucket.width_pos (h : InBucket widths point place) (hplace : place < widths.length) :
    0 < widths[place] := by
  obtain ⟨hlower, hupper⟩ := (inBucket_iff hplace).1 h
  omega

theorem bucketOf_mod_ne_none (hpos : 0 < widths.sum) (counter : Nat) :
    bucketOf widths (counter % widths.sum) ≠ none := by
  rw [ne_eq, bucketOf_eq_none_iff, totalWidth_eq_sum, Nat.not_le]
  exact Nat.mod_lt counter hpos

/-- Among the numbers below an end there are those of an interval that reaches no further. -/
theorem count_interval {start width stop : Nat} (hstop : start + width ≤ stop) :
    Nat.count (fun n => start ≤ n ∧ n < start + width) stop = width := by
  obtain ⟨rest, rfl⟩ := Nat.exists_eq_add_of_le hstop
  have hbefore : Nat.count (fun n => start ≤ n ∧ n < start + width) start = 0 :=
    Nat.count_iff_forall_not.2 fun n hn h => by omega
  have hwithin : Nat.count (fun n => start ≤ start + n ∧ start + n < start + width) width = width :=
    Nat.count_iff_forall.2 fun n hn => by omega
  have hbehind : Nat.count
      (fun n => start ≤ start + width + n ∧ start + width + n < start + width) rest = 0 :=
    Nat.count_iff_forall_not.2 fun n hn h => by omega
  rw [Nat.count_add, Nat.count_add, hbefore, hwithin, hbehind, Nat.zero_add, Nat.add_zero]

/-- A bucket holds as many points as it is wide. -/
theorem count_bucketOf (hplace : place < widths.length) :
    Nat.count (fun point => bucketOf widths point = some place) widths.sum = widths[place] := by
  have hend : (widths.take place).sum + widths[place] ≤ widths.sum := by
    rw [← List.sum_take_succ _ _ hplace, ← List.sum_take_add_sum_drop widths (place + 1)]
    exact Nat.le_add_right _ _
  simp only [bucketOf_eq_some_iff, inBucket_iff hplace]
  exact count_interval hend

/-- So it does wherever the count of the points begins, if it goes round. -/
theorem count_bucketOf_mod (hplace : place < widths.length) (start : Nat) :
    Nat.count (fun j => bucketOf widths ((start + j) % widths.sum) = some place) widths.sum =
      widths[place] := by
  have hround := Nat.count_add (fun n => bucketOf widths (n % widths.sum) = some place) start
    widths.sum
  have hshift := Nat.count_add' (fun n => bucketOf widths (n % widths.sum) = some place) start
    widths.sum
  have hfirst : Nat.count (fun n => bucketOf widths (n % widths.sum) = some place) widths.sum =
      widths[place] := by
    rw [← count_bucketOf hplace, Nat.count_eq_card_filter_range, Nat.count_eq_card_filter_range]
    congr 1
    apply Finset.filter_congr
    intro n hn
    rw [Nat.mod_eq_of_lt (Finset.mem_range.1 hn)]
  simp only [Nat.add_mod_right] at hshift
  omega

end Points

/-- A choice among some servers by these weights, for whatever key. -/
def Choice.Weighs (c : Choice) (weights : List Nat) (servers : List String) : Prop :=
  c.strategy = .weighted weights ∧ c.servers = servers

instance (c : Choice) (weights : List Nat) (servers : List String) :
    Decidable (c.Weighs weights servers) :=
  inferInstanceAs (Decidable (_ ∧ _))

namespace Selection

variable {s : Selection} {weights : List Nat} {servers : List String} {c : Choice}
  {run : List Choice}

def after (s : Selection) : List Choice → Selection
  | [] => s
  | c :: later => (s.choose c).2.after later

/-- The numbers that a choice by weight comes upon have 64 bits: the sums of the first weights, that
of all of them included, and the counter when it is moved on. -/
structure Fits (s : Selection) (widths : List Nat) : Prop where
  sums : ∀ count, (widths.take count).sum < 2 ^ 64
  counter : s.point.toNat + 1 < 2 ^ 64

/-- A bucket is found, and the counter is moved on. -/
theorem byWeight_of_sum_pos {count : Nat} (s : Selection)
    (hpos : 0 < (weightsFor weights count).sum) :
    bucketOf (weightsFor weights count) (s.point.toNat % (weightsFor weights count).sum) =
        some (s.byWeight weights count).1 ∧
      (s.byWeight weights count).2 = { s with
        point := UInt64.ofNat ((s.point.toNat + 1) % (weightsFor weights count).sum) } := by
  have hne : (weightsFor weights count).sum ≠ 0 := Nat.ne_of_gt hpos
  obtain ⟨place, hplace⟩ := exists_inBucket (Nat.mod_lt s.point.toNat hpos)
  have hbucket := bucketOf_eq_some_iff.2 hplace
  simp [byWeight, totalWidth_eq_sum, hne, hbucket]

theorem choose_of_weighs (hc : c.Weighs weights servers) (hmany : 2 ≤ servers.length)
    (hpos : 0 < (weightsFor weights servers.length).sum)
    (hfits : (weightsFor weights servers.length).sum < 2 ^ 64) :
    (s.choose c).1 = bucketOf (weightsFor weights servers.length)
        (s.point.toNat % (weightsFor weights servers.length).sum) ∧
      (s.choose c).2.point.toNat =
        (s.point.toNat + 1) % (weightsFor weights servers.length).sum := by
  obtain ⟨strategy, key, list⟩ := c
  obtain ⟨rfl, rfl⟩ : strategy = .weighted weights ∧ list = servers := hc
  obtain ⟨hbucket, hcounter⟩ := byWeight_of_sum_pos s hpos
  have hlt := Nat.mod_lt (s.point.toNat + 1) hpos
  rw [choose, select_weighted hmany, hbucket, hcounter, UInt64.toNat_ofNat',
    Nat.mod_eq_of_lt (Nat.lt_trans hlt hfits)]
  exact ⟨rfl, rfl⟩

theorem map_fst_picks (s : Selection) (run : List Choice) : (s.picks run).map Prod.fst = run := by
  induction run generalizing s with
  | nil => rfl
  | cons c run ih => rw [picks, List.map_cons, ih]

section

variable (hmany : 2 ≤ servers.length) (hpos : 0 < (weightsFor weights servers.length).sum)
  (hfits : (weightsFor weights servers.length).sum < 2 ^ 64)
  (hrun : ∀ c ∈ run, c.Weighs weights servers)

include hmany hpos hfits hrun

/-- Choices in a row go through the points one by one, and round. -/
theorem map_snd_picks_of_weighs (s : Selection) :
    (s.picks run).map Prod.snd = (List.range run.length).map fun j =>
      bucketOf (weightsFor weights servers.length)
        ((s.point.toNat + j) % (weightsFor weights servers.length).sum) := by
  induction run generalizing s with
  | nil => rfl
  | cons c run ih =>
      obtain ⟨hc, hrun⟩ := List.forall_mem_cons.1 hrun
      obtain ⟨hpick, hcounter⟩ := choose_of_weighs (s := s) hc hmany hpos hfits
      rw [picks, List.map_cons, ih hrun, List.length_cons, List.range_succ_eq_map, List.map_cons,
        List.map_map, hpick, hcounter]
      simp [Function.comp_def, Nat.add_right_comm, Nat.add_assoc]

theorem fits_after (hcounter : s.point.toNat + 1 < 2 ^ 64) :
    (s.after run).Fits (weightsFor weights servers.length) := by
  induction run generalizing s with
  | nil =>
      refine ⟨fun count => ?_, hcounter⟩
      have hparts := List.sum_take_add_sum_drop (weightsFor weights servers.length) count
      omega
  | cons c run ih =>
      obtain ⟨hc, hrun⟩ := List.forall_mem_cons.1 hrun
      apply ih hrun
      rw [(choose_of_weighs hc hmany hpos hfits).2]
      have hlt := Nat.mod_lt (s.point.toNat + 1) hpos
      omega

end

/-- Weights of 32 bits for fewer servers than these bits can count add up to a number of 64 bits. -/
theorem sum_weightsFor_lt {count : Nat} (hweights : ∀ weight ∈ weights, weight < 2 ^ 32)
    (hcount : count < 2 ^ 32) : (weightsFor weights count).sum < 2 ^ 64 := by
  have hwidths : ∀ width ∈ weightsFor weights count, width ≤ 2 ^ 32 - 1 := by
    intro width hwidth
    obtain ⟨place, -, rfl⟩ := List.mem_map.1 hwidth
    cases hweight : weights[place]? with
    | none => decide
    | some weight => exact Nat.le_sub_one_of_lt (hweights weight (List.mem_of_getElem? hweight))
  have hsum := List.sum_le_card_nsmul _ _ hwidths
  rw [length_weightsFor, Nat.nsmul_eq_mul] at hsum
  have hproduct : count * (2 ^ 32 - 1) ≤ (2 ^ 32 - 1) * (2 ^ 32 - 1) :=
    Nat.mul_le_mul_right _ (Nat.le_sub_one_of_lt hcount)
  omega

/-- A run of choices among some servers by these weights: every choice takes the bucket that the
counter points at, servers without a weight are never chosen, as many choices in a row as all weights
together choose each server as often as its weight says, the search for a bucket never fails, and all
numbers fit. -/
structure GoesRound (s : Selection) (weights : List Nat) (servers : List String)
    (run : List Choice) : Prop where
  choices : (s.picks run).map Prod.fst = run
  places : ∀ (j : Nat) (c : Choice) (pick : Option Nat), (s.picks run)[j]? = some (c, pick) →
    ∃ place, pick = some place ∧ 0 < weights[place]?.getD 1 ∧
      ∀ other, InBucket (weightsFor weights servers.length)
        ((s.point.toNat + j) % (weightsFor weights servers.length).sum) other ↔ other = place
  shares : ∀ stretch, stretch <:+: (s.picks run).map Prod.snd →
    stretch.length = (weightsFor weights servers.length).sum → ∀ place < servers.length,
      stretch.count (some place) = weights[place]?.getD 1
  found : ∀ earlier, earlier <+: run → bucketOf (weightsFor weights servers.length)
    ((s.after earlier).point.toNat % (weightsFor weights servers.length).sum) ≠ none
  fits : ∀ earlier, earlier <+: run → (s.after earlier).Fits (weightsFor weights servers.length)

theorem getElem_weightsFor {count place : Nat}
    (hplace : place < (weightsFor weights count).length) :
    (weightsFor weights count)[place] = weights[place]?.getD 1 := by
  simp [weightsFor]

/-- A stretch of choices as long as all weights together has every server as often as its weight. -/
theorem count_of_isInfix_points {widths : List Nat} {start m place : Nat}
    {stretch : List (Option Nat)} (hplace : place < widths.length)
    (hstretch : stretch <:+:
      (List.range m).map fun j => bucketOf widths ((start + j) % widths.sum))
    (hlength : stretch.length = widths.sum) : stretch.count (some place) = widths[place] := by
  obtain ⟨offset, hvalues⟩ := exists_of_isInfix_map_range hstretch
  rw [hvalues, hlength, List.count, List.countP_map, ← count_bucketOf_mod hplace (start + offset),
    Nat.count]
  apply List.countP_congr
  intro j _
  simp [Nat.add_assoc]

/-- Choices by weight are exactly proportional.  Among two servers or more, with weights that are not
all zero (a missing one counts one), and wherever the counter stands but at its very last value, a run
of choices goes round the buckets, as long as the total weight has 64 bits; and that it always has for
weights of 32 bits and fewer servers than these can count. -/
theorem weights_exact (weights : List Nat) (hmany : 2 ≤ servers.length)
    (hpos : 0 < (weightsFor weights servers.length).sum) :
    ((∀ weight ∈ weights, weight < 2 ^ 32) → servers.length < 2 ^ 32 →
      (weightsFor weights servers.length).sum < 2 ^ 64) ∧
    ((weightsFor weights servers.length).sum < 2 ^ 64 → ∀ (s : Selection) (run : List Choice),
      s.point.toNat < 2 ^ 64 - 1 → (∀ c ∈ run, c.Weighs weights servers) →
        s.GoesRound weights servers run) := by
  refine ⟨sum_weightsFor_lt, fun hfits s run hcounter hrun => ?_⟩
  have hlength := length_weightsFor weights servers.length
  have hpicks := map_snd_picks_of_weighs hmany hpos hfits hrun s
  have hearlier : ∀ earlier, earlier <+: run → ∀ c ∈ earlier, c.Weighs weights servers :=
    fun earlier hinitial c hc => hrun c (hinitial.subset hc)
  refine ⟨map_fst_picks s run, ?_, ?_, ?_, ?_⟩
  · intro j c pick hpick
    have hpoint := congrArg (·[j]?) hpicks
    simp only [List.getElem?_map, hpick, Option.map_some] at hpoint
    obtain ⟨n, hn, hbucket⟩ := Option.map_eq_some_iff.1 hpoint.symm
    obtain ⟨_, rfl⟩ : ∃ h : j < run.length, j = n := by
      simpa [List.getElem?_eq_some_iff] using hn
    obtain ⟨place, hplace⟩ := exists_inBucket (Nat.mod_lt (s.point.toNat + j) hpos)
    refine ⟨place, ?_, ?_, fun other => ⟨fun h => h.unique hplace, fun h => h ▸ hplace⟩⟩
    · rw [← hbucket, bucketOf_eq_some_iff.2 hplace]
    · rw [← getElem_weightsFor hplace.lt_length]
      exact hplace.width_pos hplace.lt_length
  · intro stretch hstretch hcount place hplace
    rw [hpicks] at hstretch
    rw [← hlength] at hplace
    rw [count_of_isInfix_points hplace hstretch hcount, getElem_weightsFor]
  · intro earlier hinitial
    exact bucketOf_mod_ne_none hpos _
  · intro earlier hinitial
    exact fits_after hmany hpos hfits (hearlier earlier hinitial) (by omega)

/-- A counter that stands as far up as it may. -/
def brimful : Selection := ⟨[], 18446744073709551614⟩

/-- Choices among four servers, for different keys; the second has no weight, and for the last one
none is given. -/
def lopsided : List Choice :=
  ["one", "two", "one", "one", "three", "one"].map fun key =>
    ⟨.weighted [3, 0, 1], key, ["a", "b", "c", "d"]⟩

/-- Any five of the choices go to the first server three times. -/
theorem brimful_goes_round :
    brimful.point.toNat = 2 ^ 64 - 2 ∧ (weightsFor [3, 0, 1] 4).sum = 5 ∧
      (∀ c ∈ lopsided, c.Weighs [3, 0, 1] ["a", "b", "c", "d"]) ∧
      (brimful.picks lopsided).map Prod.snd = [some 3, some 0, some 0, some 0, some 2, some 3] ∧
      [some 0, some 0, some 0, some 2, some 3].count (some 0) = 3 ∧
      (brimful.after lopsided).point.toNat + 1 < 2 ^ 64 := by
  have hcounter : brimful.point.toNat = 2 ^ 64 - 2 := by decide +kernel
  have hrun : ∀ c ∈ lopsided, c.Weighs [3, 0, 1] ["a", "b", "c", "d"] := by decide
  have hpicks : (brimful.picks lopsided).map Prod.snd =
      [some 3, some 0, some 0, some 0, some 2, some 3] := by decide +kernel
  have hmany : 2 ≤ ["a", "b", "c", "d"].length := by decide
  obtain ⟨hbits, hround⟩ := weights_exact [3, 0, 1] hmany (by decide)
  have hgoes := hround (hbits (by decide) (by decide)) brimful lopsided (by omega) hrun
  refine ⟨hcounter, rfl, hrun, hpicks, ?_, (hgoes.fits _ List.prefix_rfl).counter⟩
  refine hgoes.shares _ ?_ rfl 0 (by decide)
  rw [hpicks]
  exact ⟨[some 3], [], rfl⟩

end Selection

end Mailroom
