import Mathlib.Tactic.Common
import Mailroom.Content.Placeholder

/-!
The placeholders of a template, at whatever place they are written.  Main statements: no two of them
overlap, so that every place of a template becomes exactly one piece of text; and to render the
template is to put these pieces one after another.
-/

namespace Mailroom.Content

variable {vars : Dictionary} {cs body other rest : List Char} {k m n : Nat}

/-- A placeholder with this body is written at a place of a text. -/
structure OccursAt (cs : List Char) (n : Nat) (body : List Char) : Prop where
  unbraced : opening ∉ body ∧ closing ∉ body
  isWritten : written body <+: cs.drop n

/-- What a place of a text becomes when all placeholders of known keys are replaced at once: the
value where one of them begins, nothing further on in it, and what stands there anywhere else. -/
inductive Becomes (vars : Dictionary) (cs : List Char) (n : Nat) : List Char → Prop where
  | replaced {body : List Char} {value : String} (hoccurs : OccursAt cs n body)
      (hknown : vars.get? (key body) = some value) : Becomes vars cs n value.toList
  | covered {m : Nat} {body : List Char} {value : String} (hoccurs : OccursAt cs m body)
      (hknown : vars.get? (key body) = some value) (hlt : m < n)
      (hwithin : n < m + (written body).length) : Becomes vars cs n []
  | kept {c : Char} (hchar : cs[n]? = some c)
      (hunknown : ∀ m body, OccursAt cs m body → m ≤ n → n < m + (written body).length →
        vars.get? (key body) = none) : Becomes vars cs n [c]

theorem opening_ne_closing : opening ≠ closing := by decide

@[simp] theorem length_written (body : List Char) : (written body).length = body.length + 4 := by
  simp [written]

theorem body?_append (hbody : opening ∉ body ∧ closing ∉ body) (rest : List Char) :
    body? (body ++ closing :: closing :: rest) = some (body, rest) := by
  induction body with
  | nil => simp [body?, opening_ne_closing.symm]
  | cons c body ih =>
      simp only [List.mem_cons, not_or] at hbody
      obtain ⟨⟨hopen, hopens⟩, hclose, hcloses⟩ := hbody
      simp [body?, Ne.symm hopen, Ne.symm hclose, ih ⟨hopens, hcloses⟩]

theorem of_body?_eq_some (h : body? cs = some (body, rest)) :
    (opening ∉ body ∧ closing ∉ body) ∧ cs = body ++ closing :: closing :: rest := by
  induction cs generalizing body with
  | nil => cases h
  | cons c cs ih =>
      unfold body? at h
      split at h
      · cases h
      · rename_i hopen
        split at h
        · rename_i hclose
          subst hclose
          split at h
          · split at h
            · rename_i hclose
              obtain ⟨rfl, rfl⟩ := Prod.mk.inj (Option.some.inj h)
              simp [hclose]
            · cases h
          · cases h
        · rename_i hclose
          obtain ⟨⟨body', rest'⟩, hrest, heq⟩ := Option.map_eq_some_iff.1 h
          obtain ⟨rfl, rfl⟩ := Prod.mk.inj heq
          obtain ⟨⟨hopens, hcloses⟩, rfl⟩ := ih hrest
          simp [Ne.symm hopen, Ne.symm hclose, hopens, hcloses]

theorem placeholder?_eq_some_iff :
    placeholder? cs = some (body, rest) ↔
      (opening ∉ body ∧ closing ∉ body) ∧ cs = written body ++ rest := by
  constructor
  · intro h
    unfold placeholder? at h
    split at h
    · split at h
      · rename_i hopen
        obtain ⟨rfl, rfl⟩ := hopen
        obtain ⟨hbody, rfl⟩ := of_body?_eq_some h
        exact ⟨hbody, by simp [written]⟩
      · cases h
    · cases h
  · rintro ⟨hbody, rfl⟩
    simp [placeholder?, written, body?_append hbody]

theorem occursAt_iff :
    OccursAt cs n body ↔ ∃ rest, placeholder? (cs.drop n) = some (body, rest) := by
  constructor
  · rintro ⟨hbody, rest, hrest⟩
    exact ⟨rest, placeholder?_eq_some_iff.2 ⟨hbody, hrest.symm⟩⟩
  · rintro ⟨rest, h⟩
    obtain ⟨hbody, hrest⟩ := placeholder?_eq_some_iff.1 h
    exact ⟨hbody, rest, hrest.symm⟩

namespace OccursAt

theorem unique (h : OccursAt cs n body) (h' : OccursAt cs n other) : body = other := by
  obtain ⟨rest, hrest⟩ := occursAt_iff.1 h
  obtain ⟨rest', hrest'⟩ := occursAt_iff.1 h'
  exact (Prod.mk.inj (Option.some.inj (hrest.symm.trans hrest'))).1

theorem le_length (h : OccursAt cs n body) : n + (written body).length ≤ cs.length := by
  have hle := h.isWritten.length_le
  rw [List.length_drop, length_written] at *
  omega

theorem opens (h : OccursAt cs n body) : cs[n]? = some opening ∧ cs[n + 1]? = some opening := by
  obtain ⟨rest, hrest⟩ := h.isWritten
  have hfirst : (cs.drop n)[0]? = some opening := by simp [← hrest, written]
  have hsecond : (cs.drop n)[1]? = some opening := by simp [← hrest, written]
  rw [List.getElem?_drop] at hfirst hsecond
  exact ⟨hfirst, hsecond⟩

/-- Behind the two opening braces there is no other one in a placeholder. -/
theorem getElem?_ne_opening (h : OccursAt cs m body) (hle : m + 2 ≤ k)
    (hlt : k < m + (written body).length) : cs[k]? ≠ some opening := by
  obtain ⟨rest, hrest⟩ := h.isWritten
  obtain ⟨d, rfl⟩ := Nat.exists_eq_add_of_le hle
  have hd : d < (body ++ [closing, closing]).length := by
    rw [length_written] at hlt
    simp only [List.length_append, List.length_cons, List.length_nil]
    omega
  have hchar : cs[m + 2 + d]? = (body ++ [closing, closing])[d]? := by
    rw [Nat.add_assoc, ← List.getElem?_drop, ← hrest, Nat.add_comm 2 d]
    change (body ++ [closing, closing] ++ rest)[d]? = _
    exact List.getElem?_append_left hd
  rw [hchar]
  intro hopening
  have hmem := List.mem_of_getElem? hopening
  simp [h.unbraced.1, opening_ne_closing] at hmem

/-- A placeholder that begins later than another one begins behind it. -/
theorem end_le (h : OccursAt cs m body) (h' : OccursAt cs n other) (hlt : m < n) :
    m + (written body).length ≤ n := by
  by_contra hoverlap
  -- of the two braces that open the later one, at least one stands behind those of the earlier one
  by_cases hnext : n = m + 1
  · subst hnext
    refine h.getElem?_ne_opening (Nat.le_refl _) ?_ h'.opens.2
    rw [length_written]
    omega
  · exact h.getElem?_ne_opening (by omega) (by omega) h'.opens.1

theorem apart (h : OccursAt cs m body) (h' : OccursAt cs n other) :
    (m = n ∧ body = other) ∨ m + (written body).length ≤ n ∨ n + (written other).length ≤ m := by
  rcases Nat.lt_trichotomy m n with hlt | rfl | hlt
  · exact .inr (.inl (h.end_le h' hlt))
  · exact .inl ⟨rfl, h.unique h'⟩
  · exact .inr (.inr (h'.end_le h hlt))

end OccursAt

namespace Becomes

variable {p q : List Char}

/-- A placeholder of a known key decides what its places become. -/
theorem eq_of_known {value : String} (hp : Becomes vars cs n p) (hoccurs : OccursAt cs m body)
    (hknown : vars.get? (key body) = some value) (hle : m ≤ n)
    (hwithin : n < m + (written body).length) : p = if m = n then value.toList else [] := by
  cases hp with
  | @replaced other _ hoccurs' hknown' =>
      have hlong := length_written other
      rcases hoccurs.apart hoccurs' with ⟨rfl, rfl⟩ | hend | hend
      · rw [hknown', Option.some.injEq] at hknown
        rw [if_pos rfl, hknown]
      · omega
      · omega
  | covered hoccurs' _ hlt hwithin' =>
      rcases hoccurs.apart hoccurs' with ⟨rfl, rfl⟩ | hend | hend
      · rw [if_neg (Nat.ne_of_lt hlt)]
      · omega
      · omega
  | kept _ hunknown =>
      rw [hunknown m body hoccurs hle hwithin] at hknown
      cases hknown

theorem unique (hp : Becomes vars cs n p) (hq : Becomes vars cs n q) : p = q := by
  cases hp with
  | replaced hoccurs hknown =>
      rw [hq.eq_of_known hoccurs hknown (Nat.le_refl n) (by simp), if_pos rfl]
  | covered hoccurs hknown hlt hwithin =>
      rw [hq.eq_of_known hoccurs hknown (Nat.le_of_lt hlt) hwithin, if_neg (Nat.ne_of_lt hlt)]
  | kept hchar hunknown =>
      cases hq with
      | replaced hoccurs hknown =>
          rw [hunknown n _ hoccurs (Nat.le_refl n) (by simp)] at hknown
          cases hknown
      | covered hoccurs hknown hlt hwithin =>
          rw [hunknown _ _ hoccurs (Nat.le_of_lt hlt) hwithin] at hknown
          cases hknown
      | kept hchar' _ =>
          rw [hchar, Option.some.injEq] at hchar'
          rw [hchar']

end Becomes

theorem exists_becomes (vars : Dictionary) (hn : n < cs.length) : ∃ p, Becomes vars cs n p := by
  by_cases hcovered : ∃ m body value, OccursAt cs m body ∧ m ≤ n ∧
      n < m + (written body).length ∧ vars.get? (key body) = some value
  · obtain ⟨m, body, value, hoccurs, hle, hwithin, hknown⟩ := hcovered
    rcases Nat.lt_or_eq_of_le hle with hlt | rfl
    · exact ⟨_, .covered hoccurs hknown hlt hwithin⟩
    · exact ⟨_, .replaced hoccurs hknown⟩
  · refine ⟨[cs[n]], .kept (List.getElem?_eq_getElem hn) fun m body hoccurs hle hwithin => ?_⟩
    rw [Option.eq_none_iff_forall_ne_some]
    exact fun value hknown => hcovered ⟨m, body, value, hoccurs, hle, hwithin, hknown⟩

/-- No placeholder that begins before a place reaches beyond it. -/
def IsClear (cs : List Char) (n : Nat) : Prop :=
  ∀ m body, OccursAt cs m body → m < n → m + (written body).length ≤ n

namespace IsClear

theorem zero (cs : List Char) : IsClear cs 0 :=
  fun m _ _ hlt => absurd hlt (Nat.not_lt_zero m)

theorem behind (h : IsClear cs n) (hoccurs : OccursAt cs n body) :
    IsClear cs (n + (written body).length) := by
  intro m other hother hlt
  rcases hother.apart hoccurs with ⟨rfl, rfl⟩ | hend | hend
  · exact Nat.le_refl _
  · omega
  · omega

theorem succ (h : IsClear cs n) (hnone : ∀ body, ¬ OccursAt cs n body) : IsClear cs (n + 1) := by
  intro m body hoccurs hlt
  rcases Nat.lt_or_eq_of_le (Nat.le_of_lt_succ hlt) with hbefore | rfl
  · exact Nat.le_succ_of_le (h m body hoccurs hbefore)
  · exact absurd hoccurs (hnone body)

theorem kept (h : IsClear cs n) (hnone : ∀ body, ¬ OccursAt cs n body) (hn : n < cs.length) :
    Becomes vars cs n [cs[n]] := by
  refine .kept (List.getElem?_eq_getElem hn) fun m body hoccurs hle hwithin => ?_
  rcases Nat.lt_or_eq_of_le hle with hbefore | rfl
  · have hend := h m body hoccurs hbefore
    omega
  · exact absurd hoccurs (hnone body)

end IsClear

section

variable {piece : Nat → List Char}

/-- Places that keep their characters make up the text that stands there. -/
theorem flatMap_range'_of_kept (cs : List Char) {count : Nat}
    (h : ∀ k, n ≤ k → k < n + count → ∃ c, cs[k]? = some c ∧ piece k = [c]) :
    (List.range' n count).flatMap piece = (cs.drop n).take count := by
  induction count generalizing n with
  | zero => simp
  | succ count ih =>
      obtain ⟨c, hc, hpiece⟩ := h n (Nat.le_refl n) (by omega)
      obtain ⟨hn, rfl⟩ := List.getElem?_eq_some_iff.1 hc
      have hrest := ih (n := n + 1) fun k hle hlt => h k (by omega) (by omega)
      rw [List.range'_succ, List.flatMap_cons, hrest, hpiece, List.drop_eq_getElem_cons hn]
      rfl

/-- The places of a placeholder become its value, or it stays as it is written. -/
theorem flatMap_range'_of_occursAt (hpiece : ∀ k < cs.length, Becomes vars cs k (piece k))
    (h : OccursAt cs n body) :
    (List.range' n (written body).length).flatMap piece =
      match vars.get? (key body) with
      | some value => value.toList
      | none => written body := by
  have hlength := h.le_length
  have hlong := length_written body
  cases hknown : vars.get? (key body) with
  | some value =>
      have hfirst : piece n = value.toList :=
        (hpiece n (by omega)).unique (.replaced h hknown)
      have hrest : (List.range' (n + 1) (body.length + 3)).flatMap piece = [] := by
        rw [List.flatMap_eq_nil_iff]
        intro k hk
        rw [List.mem_range'_1] at hk
        exact (hpiece k (by omega)).unique (.covered h hknown (by omega) (by omega))
      rw [hlong, List.range'_succ, List.flatMap_cons, hfirst, hrest, List.append_nil]
  | none =>
      obtain ⟨rest, hrest⟩ := h.isWritten
      rw [flatMap_range'_of_kept cs, ← hrest, List.take_left]
      intro k hle hlt
      have hk : k < cs.length := by omega
      refine ⟨cs[k], List.getElem?_eq_getElem hk, (hpiece k hk).unique (.kept ?_ ?_)⟩
      · exact List.getElem?_eq_getElem hk
      · intro m other hother hm hwithin
        -- no other placeholder reaches the places of this one
        rcases hother.apart h with ⟨rfl, rfl⟩ | hend | hend
        · exact hknown
        · omega
        · omega

/-- From a place on that no placeholder reaches from before, a text is rendered place by place. -/
theorem renderChars_drop (hpiece : ∀ k < cs.length, Becomes vars cs k (piece k))
    (hn : n ≤ cs.length) (hclear : IsClear cs n) :
    renderChars vars (cs.drop n) = (List.range' n (cs.length - n)).flatMap piece := by
  generalize hds : cs.drop n = ds
  fun_induction renderChars vars ds generalizing n with
  | case1 ds body rest hbegins ih =>
      have hoccurs : OccursAt cs n body := occursAt_iff.2 ⟨rest, hds ▸ hbegins⟩
      have hlength := hoccurs.le_length
      have hrest : cs.drop (n + (written body).length) = rest := by
        rw [← List.drop_drop, hds, (placeholder?_eq_some_iff.1 hbegins).2, List.drop_left]
      have hbehind := ih hlength (hclear.behind hoccurs) hrest
      have hvalue := flatMap_range'_of_occursAt hpiece hoccurs
      have hsplit : cs.length - n =
          (written body).length + (cs.length - (n + (written body).length)) := by omega
      rw [hbehind, hsplit, ← List.range'_append_1, List.flatMap_append]
      exact congrArg (· ++ _) hvalue.symm
  | case2 hbegins =>
      have hend : cs.length ≤ n := List.drop_eq_nil_iff.1 hds
      rw [Nat.sub_eq_zero_of_le hend]
      rfl
  | case3 c rest hbegins ih =>
      have hlt : n < cs.length := by
        have hlength := congrArg List.length hds
        rw [List.length_drop, List.length_cons] at hlength
        omega
      obtain ⟨rfl, hrest⟩ : cs[n] = c ∧ cs.drop (n + 1) = rest := by
        rw [List.drop_eq_getElem_cons hlt] at hds
        exact List.cons.inj hds
      have hnone : ∀ body, ¬ OccursAt cs n body := by
        intro body hoccurs
        obtain ⟨_, hsome⟩ := occursAt_iff.1 hoccurs
        rw [hds, hbegins] at hsome
        cases hsome
      have hkept : piece n = [cs[n]] := (hpiece n hlt).unique (hclear.kept hnone hlt)
      have hbehind := ih hlt (hclear.succ hnone) hrest
      have hsplit : cs.length - n = cs.length - (n + 1) + 1 := by omega
      rw [hbehind, hsplit, List.range'_succ, List.flatMap_cons, hkept]
      rfl

theorem renderChars_eq_flatMap (hpiece : ∀ k < cs.length, Becomes vars cs k (piece k)) :
    renderChars vars cs = (List.range cs.length).flatMap piece := by
  rw [List.range_eq_range']
  exact renderChars_drop hpiece (Nat.zero_le _) (.zero cs)

end

/-- A text without placeholders of known keys is rendered as it is. -/
theorem renderChars_of_unknown
    (hunknown : ∀ n body, OccursAt cs n body → vars.get? (key body) = none) :
    renderChars vars cs = cs := by
  have hpiece : ∀ k < cs.length, Becomes vars cs k cs[k]?.toList := by
    intro k hk
    have hchar : cs[k]? = some cs[k] := List.getElem?_eq_getElem hk
    rw [hchar]
    exact .kept hchar fun m body hoccurs _ _ => hunknown m body hoccurs
  rw [renderChars_eq_flatMap hpiece, List.range_eq_range', flatMap_range'_of_kept cs,
    List.drop_zero, List.take_length]
  intro k _ hk
  have hlt : k < cs.length := by omega
  exact ⟨cs[k], List.getElem?_eq_getElem hlt, by simp [hlt]⟩

/-- Placeholders never overlap, so that every place of a template becomes exactly one piece; the
rendered template is these pieces in order, whatever braces the values have.  A template without a
placeholder of a known key stays as it is. -/
theorem render_at_once (template : String) (vars : Dictionary) :
    (∀ m n body other, OccursAt template.toList m body → OccursAt template.toList n other →
      (m = n ∧ body = other) ∨ m + (written body).length ≤ n ∨
        n + (written other).length ≤ m) ∧
    (∀ n < template.toList.length, ∃! piece, Becomes vars template.toList n piece) ∧
    (∀ piece : Nat → List Char,
      (∀ n < template.toList.length, Becomes vars template.toList n (piece n)) →
        (render template vars).toList =
          (List.range template.toList.length).flatMap piece) ∧
    ((∀ n body, OccursAt template.toList n body → vars.get? (key body) = none) →
      render template vars = template) := by
  refine ⟨fun m n body other => OccursAt.apart, ?_, ?_, ?_⟩
  · intro n hn
    obtain ⟨piece, hpiece⟩ := exists_becomes vars hn
    exact ⟨piece, hpiece, fun other hother => hother.unique hpiece⟩
  · intro piece hpiece
    rw [render, String.toList_ofList, renderChars_eq_flatMap hpiece]
  · intro hunknown
    rw [render, renderChars_of_unknown hunknown, String.ofList_toList]

/-- The innermost braces count, and what a value brings in is not looked at again. -/
example : render "\x7b\x7b\x7b a \x7d\x7d\x7d" ⟨[("a", "\x7b\x7bb\x7d\x7d"), ("b", "c")]⟩ =
    "\x7b\x7b\x7bb\x7d\x7d\x7d" := by
  cbv

end Mailroom.Content
