/-!
Cutting a list of characters at an occurrence of one of them.  Main statements: a cut loses nothing
but the mark it was made at, and the part on the far side of it is free of that mark.
-/

namespace Mailroom.Text

/-- The parts before and after the first occurrence of `mark`. -/
def cutFirst (mark : Char) : List Char → Option (List Char × List Char)
  | [] => none
  | c :: cs =>
      if c = mark then some ([], cs)
      else (cutFirst mark cs).map fun parts => (c :: parts.1, parts.2)

/-- The parts before and after the last occurrence of `mark`. -/
def cutLast (mark : Char) : List Char → Option (List Char × List Char)
  | [] => none
  | c :: cs =>
      match cutLast mark cs with
      | some parts => some (c :: parts.1, parts.2)
      | none => if c = mark then some ([], cs) else none

theorem cutLast_eq_none_iff {mark : Char} {cs : List Char} :
    cutLast mark cs = none ↔ mark ∉ cs := by
  induction cs with
  | nil => simp [cutLast]
  | cons c rest ih =>
      cases hrest : cutLast mark rest with
      | some parts =>
          have : mark ∈ rest := Decidable.byContradiction fun hmark => by
            simp [ih.2 hmark] at hrest
          simp [cutLast, hrest, this]
      | none =>
          have : mark ∉ rest := ih.1 hrest
          by_cases hc : c = mark <;> simp [cutLast, hrest, hc, this]
          exact fun h => hc h.symm

theorem cutLast_eq_some {mark : Char} {cs before after : List Char}
    (h : cutLast mark cs = some (before, after)) :
    cs = before ++ mark :: after ∧ mark ∉ after := by
  induction cs generalizing before after with
  | nil => simp [cutLast] at h
  | cons c rest ih =>
      cases hrest : cutLast mark rest with
      | some parts =>
          simp only [cutLast, hrest, Option.some.injEq, Prod.mk.injEq] at h
          rcases h with ⟨rfl, rfl⟩
          have := ih hrest
          exact ⟨by rw [this.1]; rfl, this.2⟩
      | none =>
          by_cases hc : c = mark
          · simp only [cutLast, hrest, hc, if_true, Option.some.injEq, Prod.mk.injEq] at h
            rcases h with ⟨rfl, rfl⟩
            exact ⟨by simp [hc], cutLast_eq_none_iff.1 hrest⟩
          · simp [cutLast, hrest, hc] at h

/-- The cut at a mark that the part behind it is free of. -/
theorem cutLast_append {mark : Char} {before after : List Char} (h : mark ∉ after) :
    cutLast mark (before ++ mark :: after) = some (before, after) := by
  induction before with
  | nil => simp [cutLast, cutLast_eq_none_iff.2 h]
  | cons c before ih => simp [cutLast, ih]

/-- A list is cut in one way only at the first mark. -/
theorem append_cons_inj {α : Type} {mark : α} {xs ys us vs : List α} (hx : mark ∉ xs)
    (hy : mark ∉ ys) (h : xs ++ mark :: us = ys ++ mark :: vs) : xs = ys ∧ us = vs := by
  induction xs generalizing ys with
  | nil =>
      cases ys with
      | nil => exact ⟨rfl, (List.cons.inj h).2⟩
      | cons y ys => exact absurd (List.cons.inj h).1 fun hmark => hy (hmark ▸ List.mem_cons_self)
  | cons x xs ih =>
      cases ys with
      | nil =>
          exact absurd (List.cons.inj h).1.symm fun hmark => hx (hmark ▸ List.mem_cons_self)
      | cons y ys =>
          obtain ⟨rfl, hrest⟩ := List.cons.inj h
          obtain ⟨rfl, hsame⟩ := ih (fun hm => hx (List.mem_cons_of_mem _ hm))
            (fun hm => hy (List.mem_cons_of_mem _ hm)) hrest
          exact ⟨rfl, hsame⟩

/-- A list is cut in one way only at the last mark. -/
theorem append_cons_inj_last {mark : Char} {xs ys us vs : List Char} (hu : mark ∉ us)
    (hv : mark ∉ vs) (h : xs ++ mark :: us = ys ++ mark :: vs) : xs = ys ∧ us = vs := by
  have hcut := congrArg (cutLast mark) h
  rw [cutLast_append hu, cutLast_append hv] at hcut
  exact Prod.mk.inj (Option.some.inj hcut)

/-- The pieces between the occurrences of `mark`; there is always at least one. -/
def pieces (mark : Char) : List Char → List (List Char)
  | [] => [[]]
  | c :: cs =>
      if c = mark then [] :: pieces mark cs
      else match pieces mark cs with
        | [] => [[c]]
        | piece :: rest => (c :: piece) :: rest

/-- The pieces of a text between the occurrences of `mark`. -/
def split (mark : Char) (s : String) : List String := (pieces mark s.toList).map String.ofList

/-- What follows `lead` in a list that starts with it. -/
def afterLead? (lead : List Char) (cs : List Char) : Option (List Char) :=
  match lead, cs with
  | [], rest => some rest
  | _ :: _, [] => none
  | l :: ls, c :: rest => if l = c then afterLead? ls rest else none

theorem eq_append_of_afterLead? {lead cs rest : List Char} (h : afterLead? lead cs = some rest) :
    cs = lead ++ rest := by
  induction lead generalizing cs with
  | nil => exact Option.some.inj h
  | cons l ls ih =>
      cases cs with
      | nil => cases h
      | cons c cs =>
          rw [afterLead?] at h
          split at h
          · rename_i hsame
            rw [hsame, ih h]
            rfl
          · cases h

/-- What follows `lead` in a text that starts with it. -/
def after? (lead s : String) : Option String :=
  (afterLead? lead.toList s.toList).map String.ofList

end Mailroom.Text
