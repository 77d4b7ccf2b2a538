import Mathlib.Data.List.Perm.Subperm
import Mailroom.Proofs.Store.Calls
import Mailroom.Proofs.Store.Instants

/-!
The queue of items that wait for news of their servers.  The list from which checks are drawn is in
the order of `Tables.checkedBefore`, which is total and transitive.  Main statements: rows whose
stamp is not as late as some instant come before all whose stamp is, and so a batch of that list
draws nothing else as long as there are enough of them.
-/

namespace Mailroom

namespace Timestamp

variable {a b : Timestamp}

theorem le_total (a b : Timestamp) : a.le b = true ∨ b.le a = true := by
  rw [le_iff, le_iff]
  omega

theorem le_antisymm (hab : a.le b = true) (hba : b.le a = true) : a = b := by
  rw [le_iff] at hab hba
  obtain ⟨seconds, nanos⟩ := a
  obtain ⟨seconds', nanos'⟩ := b
  simp only [mk.injEq] at *
  omega

theorem lt_iff_not_le : a.lt b = true ↔ ¬ b.le a = true := by
  simp [lt]

theorem le_of_lt (h : a.lt b = true) : a.le b = true :=
  (le_total a b).resolve_right (lt_iff_not_le.1 h)

end Timestamp

namespace Tables

theorem noLater_total (a b : Option Timestamp) : noLater a b = true ∨ noLater b a = true := by
  cases a with
  | none => exact .inl rfl
  | some a =>
      cases b with
      | none => exact .inr rfl
      | some b => exact a.le_total b

theorem noLater_trans {a b c : Option Timestamp} (hab : noLater a b = true)
    (hbc : noLater b c = true) : noLater a c = true := by
  cases a with
  | none => rfl
  | some a =>
      cases b with
      | none => cases hab
      | some b =>
          cases c with
          | none => cases hbc
          | some c => exact Timestamp.le_trans hab hbc

theorem noLater_antisymm {a b : Option Timestamp} (hab : noLater a b = true)
    (hba : noLater b a = true) : a = b := by
  cases a with
  | none =>
      cases b with
      | none => rfl
      | some b => cases hba
  | some a =>
      cases b with
      | none => cases hab
      | some b => rw [Timestamp.le_antisymm hab hba]

/-- Stamps are compared first, and the last writes between equal stamps. -/
theorem checkedBefore_iff {a b : Item} :
    checkedBefore a b = true ↔ noLater a.checkedAt b.checkedAt = true ∧
      (a.checkedAt = b.checkedAt → a.updatedAt.le b.updatedAt = true) := by
  unfold checkedBefore
  split
  · rename_i hsame
    have hreflexive : noLater b.checkedAt b.checkedAt = true :=
      (noLater_total b.checkedAt b.checkedAt).elim id id
    simp [hsame, hreflexive]
  · rename_i hne
    simp [hne]

theorem checkedBefore_total (a b : Item) :
    (checkedBefore a b || checkedBefore b a) = true := by
  rw [Bool.or_eq_true, checkedBefore_iff, checkedBefore_iff]
  by_cases hsame : a.checkedAt = b.checkedAt
  · have hreflexive : noLater b.checkedAt b.checkedAt = true :=
      (noLater_total b.checkedAt b.checkedAt).elim id id
    simpa [hsame, hreflexive] using a.updatedAt.le_total b.updatedAt
  · simpa [hsame, Ne.symm hsame] using noLater_total a.checkedAt b.checkedAt

theorem checkedBefore_trans (a b c : Item) (hab : checkedBefore a b = true)
    (hbc : checkedBefore b c = true) : checkedBefore a c = true := by
  rw [checkedBefore_iff] at *
  refine ⟨noLater_trans hab.1 hbc.1, fun hsame => ?_⟩
  -- whoever stands between equal stamps has the same one
  have hfirst : a.checkedAt = b.checkedAt := noLater_antisymm hab.1 (hsame ▸ hbc.1)
  exact Timestamp.le_trans (hab.2 hfirst) (hbc.2 (hfirst.symm.trans hsame))

/-- The rows that wait for news of their servers. -/
def awaiting (t : Tables) : List Item := t.items.filter isAwaiting

/-- Whether an item has not been checked since an instant. -/
def isOverdue (time : Timestamp) (i : Item) : Bool :=
  match i.checkedAt with
  | none => true
  | some checked => checked.lt time

/-- The rows that wait and have not been checked since an instant. -/
def overdue (t : Tables) (time : Timestamp) : List Item := t.awaiting.filter (isOverdue time)

variable {t : Tables} {time : Timestamp} {i : Item}

theorem mem_awaiting : i ∈ t.awaiting ↔ i ∈ t.items ∧ isAwaiting i = true := List.mem_filter

theorem mem_overdue : i ∈ t.overdue time ↔ i ∈ t.awaiting ∧ isOverdue time i = true :=
  List.mem_filter

theorem queued_of_awaiting (h : isAwaiting i = true) : i.status = .known .queued := by
  simp only [isAwaiting, Bool.and_eq_true, beq_iff_eq] at h
  exact h.1

theorem awaiting_ids_nodup (ht : t.IsWellFormed) : (t.awaiting.map Item.id).Nodup :=
  (List.filter_sublist.map Item.id).nodup ht.items_nodup

theorem overdue_nodup (ht : t.IsWellFormed) (time : Timestamp) : (t.overdue time).Nodup :=
  ((awaiting_ids_nodup ht).of_map Item.id).filter _

theorem queuedItems_subset (t : Tables) (limit : Int) : t.queuedItems limit ⊆ t.awaiting :=
  fun _ hi => List.mem_mergeSort.1 (List.mem_of_mem_take hi)

theorem queuedItems_rows_nodup (ht : t.IsWellFormed) (limit : Int) : (t.queuedItems limit).Nodup :=
  (queuedItems_nodup ht limit).of_map Item.id

theorem length_queuedItems (t : Tables) (limit : Int) :
    (t.queuedItems limit).length = min limit.toNat t.awaiting.length := by
  rw [queuedItems, List.length_take, List.length_mergeSort, awaiting]

/-- What is drawn is found by the rows that wait alone. -/
theorem queuedItems_congr {u : Tables} (h : u.awaiting = t.awaiting) (limit : Int) :
    u.queuedItems limit = t.queuedItems limit := by
  have hrows : u.items.filter isAwaiting = t.items.filter isAwaiting := h
  rw [queuedItems, hrows, queuedItems]

theorem isOverdue_eq_false_iff :
    isOverdue time i = false ↔ ∃ checked, i.checkedAt = some checked ∧ time.le checked = true := by
  unfold isOverdue
  cases i.checkedAt <;> simp [Timestamp.lt]

/-- A row that is not overdue does not come before one that is. -/
theorem not_checkedBefore_of_overdue {k : Item} (hi : isOverdue time i = true)
    (hk : isOverdue time k = false) : ¬ checkedBefore k i = true := by
  obtain ⟨late, hlate, htime⟩ := isOverdue_eq_false_iff.1 hk
  rw [checkedBefore_iff, hlate]
  rintro ⟨hle, -⟩
  cases hearly : i.checkedAt with
  | none => simp [hearly, noLater] at hle
  | some early =>
      rw [hearly] at hle
      have hnot := isOverdue_eq_false_iff.2 ⟨early, hearly, Timestamp.le_trans htime hle⟩
      rw [hi] at hnot
      cases hnot

/-- As soon as anything else is drawn, all that is overdue is. -/
theorem overdue_subset_queuedItems {limit : Int} {k : Item} (hk : k ∈ t.queuedItems limit)
    (hlate : isOverdue time k = false) : t.overdue time ⊆ t.queuedItems limit := by
  intro i hi
  obtain ⟨hawaiting, hoverdue⟩ := mem_overdue.1 hi
  have hsorted : ((t.items.filter isAwaiting).mergeSort checkedBefore).Pairwise
      fun a b => checkedBefore a b = true :=
    List.pairwise_mergeSort checkedBefore_trans checkedBefore_total _
  have hmem : i ∈ (t.items.filter isAwaiting).mergeSort checkedBefore :=
    List.mem_mergeSort.2 hawaiting
  rw [← List.take_append_drop limit.toNat ((t.items.filter isAwaiting).mergeSort checkedBefore)]
    at hsorted hmem
  rcases List.mem_append.1 hmem with hdrawn | hleft
  · exact hdrawn
  · exact absurd ((List.pairwise_append.1 hsorted).2.2 k hk i hleft)
      (not_checkedBefore_of_overdue hoverdue hlate)

/-- Of what is overdue a draw leaves at most all but a batch. -/
theorem length_le_of_undrawn (ht : t.IsWellFormed) (limit : Int) (time : Timestamp)
    {left : List Item} (hnodup : left.Nodup)
    (hleft : ∀ i ∈ left, i ∈ t.overdue time ∧ i ∉ t.queuedItems limit) :
    left.length ≤ (t.overdue time).length - limit.toNat := by
  by_cases hlate : ∃ k ∈ t.queuedItems limit, isOverdue time k = false
  · -- everything overdue was drawn
    obtain ⟨k, hk, hlate⟩ := hlate
    have hnone : left = [] := by
      rw [List.eq_nil_iff_forall_not_mem]
      exact fun i hi => (hleft i hi).2 (overdue_subset_queuedItems hk hlate (hleft i hi).1)
    simp [hnone]
  · have hdrawn : t.queuedItems limit ⊆ t.overdue time := by
      intro k hk
      refine mem_overdue.2 ⟨queuedItems_subset t limit hk, ?_⟩
      by_contra hlate'
      exact hlate ⟨k, hk, by simpa using hlate'⟩
    have hapart : (t.queuedItems limit ++ left).Nodup :=
      List.Nodup.append (queuedItems_rows_nodup ht limit) hnodup
        fun i hi hi' => (hleft i hi').2 hi
    have hsub : t.queuedItems limit ++ left ⊆ t.overdue time :=
      List.append_subset.2 ⟨hdrawn, fun i hi => (hleft i hi).1⟩
    have hcount := (List.subperm_of_subset hapart hsub).length_le
    have hmost : (t.overdue time).length ≤ t.awaiting.length := List.length_filter_le _ _
    rw [List.length_append, length_queuedItems] at hcount
    omega

end Tables

end Mailroom
