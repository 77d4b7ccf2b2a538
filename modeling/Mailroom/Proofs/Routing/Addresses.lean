import Mathlib
import Mailroom.Address

/-!
Addresses as they are printed.  The parts of an address may hold brackets, at signs and blanks of
their own, and the printed form does without the display name and the brackets around the address.
Main statement: an address that was read is read again from its printed form, and the parts that it
has are as a printed form needs them.
-/

namespace Mailroom

namespace Text

variable {cs : List Char}

structure IsTrimmed (cs : List Char) : Prop where
  first : ∀ c ∈ cs.head?, isBlank c = false
  last : ∀ c ∈ cs.getLast?, isBlank c = false

theorem IsTrimmed.trim_eq_self (h : IsTrimmed cs) : trim cs = cs := by
  have hleft : trimLeft cs = cs := trimLeft_eq_self h.first
  have hright : trimLeft cs.reverse = cs.reverse :=
    trimLeft_eq_self fun c hc => h.last c (by rwa [List.head?_reverse] at hc)
  rw [trim, hleft, trimRight]
  change (trimLeft cs.reverse).reverse = cs
  rw [hright, List.reverse_reverse]

theorem trimRight_isPrefix (cs : List Char) : trimRight cs <+: cs := by
  rw [← List.reverse_suffix, trimRight, List.reverse_reverse]
  exact List.dropWhile_suffix _

theorem isTrimmed_trim (cs : List Char) : IsTrimmed (trim cs) where
  first c hc := by
    obtain ⟨rest, hrest⟩ := trimRight_isPrefix (trimLeft cs)
    have hhead : (trimRight (trimLeft cs)).head? = some c := hc
    apply trimLeft_head cs
    exact hrest ▸ List.mem_head?_append_of_mem_head? hhead
  last _ hc := trimRight_last hc

/-- Trimming takes nothing but blanks away. -/
theorem filter_trim {p : Char → Bool} (hp : ∀ c, isBlank c = true → p c = false)
    (cs : List Char) : (trim cs).filter p = cs.filter p := by
  have hleft : ∀ ds : List Char, (trimLeft ds).filter p = ds.filter p := by
    intro ds
    induction ds with
    | nil => rfl
    | cons d ds ih =>
        by_cases hd : isBlank d = true
        · rw [trimLeft, List.dropWhile_cons_of_pos hd, List.filter_cons_of_neg (by simp [hp d hd])]
          exact ih
        · rw [trimLeft, List.dropWhile_cons_of_neg hd]
  have hright := hleft (trimLeft cs).reverse
  rw [List.filter_reverse, ← List.reverse_inj, List.reverse_reverse,
    ← List.filter_reverse] at hright
  rw [trim, trimRight, ← hleft cs]
  exact hright

theorem mem_of_mem_trim {c : Char} (h : c ∈ trim cs) : c ∈ cs := by
  have hleft := (trimRight_isPrefix (trimLeft cs)).subset h
  exact (List.dropWhile_suffix _).subset hleft

theorem toLower_cases (c : Char) :
    c.toLower = c ∨ c.isUpper = true ∧ c.toLower.isLower = true := by
  cases hupper : c.isUpper with
  | false => exact .inl (Char.toLower_eq_of_not_isUpper (Bool.eq_false_iff.1 hupper))
  | true =>
      refine .inr ⟨rfl, ?_⟩
      rw [Char.isLower_toLower_eq_isAlpha, Char.isAlpha, hupper, Bool.true_or]

/-- Letter case touches nothing but letters. -/
theorem toLower_eq_iff {c d : Char} (hd : d.isAlpha = false) : c.toLower = d ↔ c = d := by
  rw [Char.isAlpha, Bool.or_eq_false_iff] at hd
  rcases toLower_cases c with hsame | ⟨hupper, hlower⟩
  · rw [hsame]
  · constructor
    · rintro rfl
      exact absurd hlower (by simp [hd.2])
    · rintro rfl
      exact absurd hupper (by simp [hd.1])

theorem isBlank_of_isAlpha {c : Char} (h : c.isAlpha = true) : isBlank c = false := by
  have hbounds : 65 ≤ c.toNat ∧ c.toNat ≤ 90 ∨ 97 ≤ c.toNat ∧ c.toNat ≤ 122 := by
    simpa [Char.isAlpha, Char.isUpper, Char.isLower, UInt32.le_iff_toNat_le] using h
  simp only [isBlank, Bool.or_eq_false_iff, Bool.and_eq_false_iff, decide_eq_false_iff_not,
    beq_eq_false_iff_ne]
  omega

theorem isBlank_toLower (c : Char) : isBlank c.toLower = isBlank c := by
  rcases toLower_cases c with hsame | ⟨hupper, hlower⟩
  · rw [hsame]
  · rw [isBlank_of_isAlpha (by rw [Char.isAlpha, hlower, Bool.or_true]),
      isBlank_of_isAlpha (by rw [Char.isAlpha, hupper, Bool.true_or])]

theorem IsTrimmed.map_toLower (h : IsTrimmed cs) : IsTrimmed (cs.map Char.toLower) where
  first c hc := by
    rw [List.head?_map] at hc
    obtain ⟨d, hd, rfl⟩ := Option.map_eq_some_iff.1 hc
    rw [isBlank_toLower, h.first d hd]
  last c hc := by
    rw [List.getLast?_map] at hc
    obtain ⟨d, hd, rfl⟩ := Option.map_eq_some_iff.1 hc
    rw [isBlank_toLower, h.last d hd]

end Text

namespace Address

variable {s : String} {a : Address} {cs : List Char}

def brackets (cs : List Char) : List Char := cs.filter fun c => c == '<' || c == '>'

/-- A text has no part in brackets: there is no opening one, or no closing one behind the last of
them. -/
def IsBare (cs : List Char) : Prop := '<' ∉ brackets cs ∨ (brackets cs).getLast? = some '<'

theorem mem_brackets {c : Char} : c ∈ brackets cs ↔ c ∈ cs ∧ (c = '<' ∨ c = '>') := by
  simp [brackets]

theorem brackets_append (cs ds : List Char) : brackets (cs ++ ds) = brackets cs ++ brackets ds :=
  List.filter_append ..

@[simp] theorem brackets_trim (cs : List Char) : brackets (Text.trim cs) = brackets cs := by
  apply Text.filter_trim
  intro c hblank
  by_contra hbracket
  simp only [Bool.not_eq_false, Bool.or_eq_true, beq_iff_eq] at hbracket
  rcases hbracket with rfl | rfl <;> exact absurd hblank (by decide)

@[simp] theorem brackets_map_toLower (cs : List Char) :
    brackets (cs.map Char.toLower) = brackets cs := by
  have hopen : ∀ c : Char, c.toLower = '<' ↔ c = '<' := fun _ => Text.toLower_eq_iff (by decide)
  have hclose : ∀ c : Char, c.toLower = '>' ↔ c = '>' := fun _ => Text.toLower_eq_iff (by decide)
  induction cs with
  | nil => rfl
  | cons c cs ih =>
      unfold brackets at *
      by_cases hc : c = '<' ∨ c = '>'
      · rcases hc with rfl | rfl
        · exact congrArg (List.cons '<') ih
        · exact congrArg (List.cons '>') ih
      · simpa [List.filter_cons, hopen, hclose, hc] using ih

theorem bracketed_of_isBare (h : IsBare cs) : bracketed cs = cs := by
  unfold bracketed
  split
  · rfl
  · rename_i before after hopen
    obtain ⟨rfl, hlast⟩ := Text.cutLast_eq_some hopen
    have hclose : '>' ∉ after := by
      intro hmem
      have hne : brackets after ≠ [] := List.ne_nil_of_mem (mem_brackets.2 ⟨hmem, .inr rfl⟩)
      have hend : (brackets (before ++ '<' :: after)).getLast? = (brackets after).getLast? := by
        rw [List.append_cons, brackets_append]
        exact List.getLast?_append_of_ne_nil _ hne
      rcases h with hnone | hopens
      · exact hnone (mem_brackets.2 ⟨by simp, .inl rfl⟩)
      · rw [hend] at hopens
        exact hlast (mem_brackets.1 (List.mem_of_getLast? hopens)).1
    rw [Text.cutLast_eq_none_iff.2 hclose]

theorem isBare_bracketed (cs : List Char) : IsBare (bracketed cs) := by
  unfold bracketed
  split
  · rename_i hopen
    exact .inl fun hmem => Text.cutLast_eq_none_iff.1 hopen (mem_brackets.1 hmem).1
  · rename_i before after hopen
    obtain ⟨rfl, hlast⟩ := Text.cutLast_eq_some hopen
    split
    · rename_i hclose
      have hbehind : brackets after = [] := by
        rw [List.eq_nil_iff_forall_not_mem]
        intro c hc
        rcases mem_brackets.1 hc with ⟨hmem, rfl | rfl⟩
        · exact hlast hmem
        · exact Text.cutLast_eq_none_iff.1 hclose hmem
      refine .inr ?_
      rw [List.append_cons, brackets_append, hbehind, brackets_append]
      simp [brackets]
    · rename_i inside behind hclose
      obtain ⟨rfl, -⟩ := Text.cutLast_eq_some hclose
      exact .inl fun hmem => hlast (List.mem_append_left _ (mem_brackets.1 hmem).1)

/-- What an address has to be like for its printed form to stand for it. -/
structure IsPrintable (a : Address) : Prop where
  localPart_ne : a.localPart ≠ ""
  domain_ne : a.domain ≠ ""
  begins : ∀ c ∈ a.localPart.toList.head?, Text.isBlank c = false
  unmarked : '@' ∉ a.domain.toList
  lowered : Text.lowered a.domain = a.domain
  trimmed : Text.IsTrimmed a.domain.toList
  bare : IsBare a.display.toList

theorem toList_display (a : Address) :
    a.display.toList = a.localPart.toList ++ '@' :: a.domain.toList := by
  simp [display]

theorem parse?_eq_some_iff : parse? s = some a ↔ ∃ localPart rest,
    Text.cutLast '@' (Text.trim (bracketed (Text.trim s.toList))) = some (localPart, rest) ∧
      localPart ≠ [] ∧ Text.trim rest ≠ [] ∧
        a = ⟨String.ofList localPart, Text.lowered (String.ofList (Text.trim rest))⟩ := by
  rw [parse?]
  split
  · rename_i hnone
    simp [hnone]
  · rename_i localPart rest hsome
    simp only [hsome, Option.some.injEq, Prod.mk.injEq]
    split
    · rename_i hempty
      constructor
      · exact nofun
      · rintro ⟨_, _, ⟨rfl, rfl⟩, hlocal, hdomain, -⟩
        exact absurd hempty (not_or.2 ⟨hlocal, hdomain⟩)
    · rename_i hfull
      obtain ⟨hlocal, hdomain⟩ := not_or.1 hfull
      constructor
      · intro ha
        exact ⟨_, _, ⟨rfl, rfl⟩, hlocal, hdomain, (Option.some.inj ha).symm⟩
      · rintro ⟨_, _, ⟨rfl, rfl⟩, -, -, rfl⟩
        rfl

theorem isPrintable_of_parse? (h : parse? s = some a) : a.IsPrintable := by
  obtain ⟨localPart, rest, hcut, hlocal, hdomain, rfl⟩ := parse?_eq_some_iff.1 h
  obtain ⟨hwhole, hunmarked⟩ := Text.cutLast_eq_some hcut
  have htrimmed := Text.isTrimmed_trim (bracketed (Text.trim s.toList))
  have hbare : IsBare (Text.trim (bracketed (Text.trim s.toList))) := by
    rw [IsBare, brackets_trim]
    exact isBare_bracketed _
  rw [hwhole] at htrimmed hbare
  constructor
  case localPart_ne => simpa using hlocal
  case domain_ne =>
    intro hempty
    apply hdomain
    simpa [Text.lowered] using hempty
  case begins =>
    intro c hc
    rw [String.toList_ofList] at hc
    exact htrimmed.first c (List.mem_head?_append_of_mem_head? hc)
  case unmarked =>
    rw [Text.toList_lowered, String.toList_ofList, List.mem_map]
    rintro ⟨c, hc, hmark⟩
    rw [Text.toLower_eq_iff (by decide)] at hmark
    exact hunmarked (hmark ▸ Text.mem_of_mem_trim hc)
  case lowered => exact Text.lowered_lowered _
  case trimmed =>
    rw [Text.toList_lowered, String.toList_ofList]
    exact (Text.isTrimmed_trim rest).map_toLower
  case bare =>
    rw [IsBare, toList_display, List.append_cons, brackets_append, Text.toList_lowered,
      String.toList_ofList, String.toList_ofList, brackets_map_toLower, brackets_trim,
      ← brackets_append, ← List.append_cons]
    exact hbare

theorem IsPrintable.reread (h : a.IsPrintable) : parse? a.display = some a := by
  have hlocal : a.localPart.toList ≠ [] := by simpa using h.localPart_ne
  have hdomain : a.domain.toList ≠ [] := by simpa using h.domain_ne
  have htrimmed : Text.IsTrimmed a.display.toList := by
    rw [toList_display]
    constructor
    · intro c hc
      apply h.begins
      rwa [List.head?_append_of_ne_nil _ hlocal] at hc
    · intro c hc
      apply h.trimmed.last
      rwa [List.append_cons, List.getLast?_append_of_ne_nil _ hdomain] at hc
  apply parse?_eq_some_iff.2
  refine ⟨a.localPart.toList, a.domain.toList, ?_, hlocal, ?_, ?_⟩
  · rw [htrimmed.trim_eq_self, bracketed_of_isBare h.bare, htrimmed.trim_eq_self, toList_display,
      Text.cutLast_append h.unmarked]
  · rwa [h.trimmed.trim_eq_self]
  · rw [h.trimmed.trim_eq_self, String.ofList_toList, String.ofList_toList, h.lowered]

/-- The addresses that are read again from their printed forms are those that can be printed. -/
theorem parse?_display_iff : parse? a.display = some a ↔ a.IsPrintable :=
  ⟨isPrintable_of_parse?, IsPrintable.reread⟩

/-- An address that was read has a local part, and a domain without an at sign, capital letters and
blanks at its ends; and its printed form is read as the same address again, which has the same
domain to send from. -/
theorem parse?_display (h : parse? s = some a) :
    a.localPart ≠ "" ∧ a.domain ≠ "" ∧ '@' ∉ a.domain.toList ∧
      (∀ c ∈ a.domain.toList, c.isUpper = false) ∧
      (∀ c ∈ a.domain.toList.head?, Text.isBlank c = false) ∧
      (∀ c ∈ a.domain.toList.getLast?, Text.isBlank c = false) ∧
      parse? a.display = some a ∧ senderDomain? a.display = some a.domain := by
  have hprintable := isPrintable_of_parse? h
  have hread : parse? a.display = some a := parse?_display_iff.2 hprintable
  refine ⟨hprintable.localPart_ne, hprintable.domain_ne, hprintable.unmarked, ?_,
    hprintable.trimmed.first, hprintable.trimmed.last, hread, ?_⟩
  · intro c hc
    rw [← hprintable.lowered, Text.toList_lowered] at hc
    obtain ⟨d, -, rfl⟩ := List.mem_map.1 hc
    exact Char.isUpper_toLower_eq_false d
  · rw [senderDomain?, hread, Option.map_some]

/-- Of several brackets and at signs the last ones count, and what is read between them may hold a
bracket and a blank; printed bare, it is not taken for a display name. -/
theorem reread_with_bracket :
    parse? " Doe, J. <x@y> <j>@doe @ EXAMPLE.Org > " = some ⟨"j>@doe ", "example.org"⟩ ∧
      parse? "j>@doe @example.org" = some ⟨"j>@doe ", "example.org"⟩ := by
  have hread : parse? " Doe, J. <x@y> <j>@doe @ EXAMPLE.Org > " =
      some ⟨"j>@doe ", "example.org"⟩ := by decide +kernel
  obtain ⟨-, -, -, -, -, -, hagain, -⟩ := parse?_display hread
  exact ⟨hread, hagain⟩

end Address

end Mailroom
