import Mathlib.Algebra.Ring.Int.Defs
import Mathlib.Algebra.Ring.Nat
import Mathlib.Data.List.Basic
import Mathlib.Data.List.TakeDrop
import Mailroom.Json.Reader
import Mailroom.Json.Writer

/-!
JSON values read again from their texts.  Every part of a value is read up to the text behind it,
so that the parts of arrays and objects are read one after the other.  Main statement: a value
without fractions, with whole numbers of at most 64 bits and nested no deeper than the limit is
read from its text as it was.
-/

namespace Mailroom.Json

theorem unicodeEscape?_hexDigits {c : Char} (hc : c.toNat < 0x20) (rest : List Char) :
    unicodeEscape? (Text.hexDigits 4 c.toNat ++ rest) = some (some c, rest) := by
  have hlength := Text.length_hexDigits 4 c.toNat
  have hunit : unit? (Text.hexDigits 4 c.toNat ++ rest) = some (c.toNat, rest) := by
    rw [unit?, List.take_left' hlength, List.drop_left' hlength, if_pos hlength,
      Text.hexNumber?_hexDigits, Option.map_some, Nat.mod_eq_of_lt (by simp; omega)]
  have hlow : ¬ (0xDC00 ≤ c.toNat ∧ c.toNat ≤ 0xDFFF) := by omega
  have hhigh : ¬ (0xD800 ≤ c.toNat ∧ c.toNat ≤ 0xDBFF) := by omega
  simp [unicodeEscape?, hunit, hlow, hhigh]

theorem stringRest?_escaped (fuel : Nat) (c : Char) (rest done : List Char) :
    stringRest? (fuel + 1) (escaped c ++ rest) (some done) =
      stringRest? fuel rest (some (c :: done)) := by
  unfold escaped
  split_ifs with hquote hslash hn hr ht hb hf hcontrol
  on_goal 9 => simp [stringRest?, hquote, hslash, hcontrol]
  on_goal 8 =>
    have hread := unicodeEscape?_hexDigits hcontrol rest
    rw [List.cons_append, List.cons_append, stringRest?]
    simp [hread]
  all_goals subst c; simp [stringRest?]

theorem stringRest?_flatMap_escaped {cs : List Char} {fuel : Nat} (hfuel : cs.length < fuel)
    (rest done : List Char) :
    stringRest? fuel (cs.flatMap escaped ++ '"' :: rest) (some done) =
      some (.str (String.ofList (done.reverse ++ cs)), rest) := by
  induction cs generalizing fuel done with
  | nil =>
      obtain ⟨fuel, rfl⟩ : ∃ n, fuel = n + 1 := ⟨fuel - 1, by simp at hfuel; omega⟩
      simp [stringRest?]
  | cons c cs ih =>
      rw [List.length_cons] at hfuel
      obtain ⟨fuel, rfl⟩ : ∃ n, fuel = n + 1 := ⟨fuel - 1, by omega⟩
      rw [List.flatMap_cons, List.append_assoc, stringRest?_escaped, ih (by omega)]
      simp

theorem escaped_ne_nil (c : Char) : escaped c ≠ [] := by
  unfold escaped
  split_ifs <;> simp

theorem length_le_flatMap_escaped (cs : List Char) : cs.length ≤ (cs.flatMap escaped).length := by
  induction cs with
  | nil => simp
  | cons c cs ih =>
      have hc := List.length_pos_iff.2 (escaped_ne_nil c)
      rw [List.flatMap_cons, List.length_append, List.length_cons]
      omega

theorem string?_escaped (s : String) (rest : List Char) :
    string? (s.toList.flatMap escaped ++ '"' :: rest) = some (.str s, rest) := by
  have hlength := length_le_flatMap_escaped s.toList
  rw [string?, stringRest?_flatMap_escaped (by rw [List.length_append]; omega)]
  simp

theorem toList_quoted (s : String) :
    (quoted s).toList = '"' :: (s.toList.flatMap escaped ++ ['"']) := by
  rw [quoted, String.toList_ofList]

/-- A text that no number goes on with. -/
structure IsBeyond (rest : List Char) : Prop where
  digit : ∀ c ∈ rest.head?, c.isDigit = false
  point : ∀ after, rest ≠ '.' :: after
  mark : 'e' ∉ rest.head? ∧ 'E' ∉ rest.head?

theorem isBeyond_nil : IsBeyond [] := ⟨by simp, by simp, by simp⟩

theorem isBeyond_cons {c : Char} (hdigit : c.isDigit = false) (hc : c ∉ ['.', 'e', 'E'])
    (rest : List Char) : IsBeyond (c :: rest) := by
  simp only [List.mem_cons, List.not_mem_nil, or_false, not_or] at hc
  obtain ⟨hpoint, hlower, hupper⟩ := hc
  exact ⟨by simp [hdigit], by simp [hpoint], by simp [hlower], by simp [hupper]⟩

theorem digits_append {ds rest : List Char} (hds : ∀ d ∈ ds, d.isDigit = true)
    (hrest : IsBeyond rest) : digits (ds ++ rest) = (ds, rest) := by
  rw [digits, List.span_eq_takeWhile_dropWhile, List.takeWhile_append_of_pos hds,
    List.dropWhile_append_of_pos hds]
  cases rest with
  | nil => simp
  | cons c rest =>
      have hc : c.isDigit = false := hrest.digit c rfl
      simp [hc]

theorem le_ofDigitChars (start : Nat) (ds : List Char) : start ≤ Nat.ofDigitChars 10 ds start := by
  induction ds generalizing start with
  | nil => simp
  | cons d ds ih =>
      rw [Nat.ofDigitChars_cons]
      exact Nat.le_trans (by omega) (ih _)

/-- Digits whose value fits 64 bits are all taken in. -/
theorem gather_eq {start : Nat} {ds : List Char} (h : Nat.ofDigitChars 10 ds start < UInt64.size) :
    gather start ds = (Nat.ofDigitChars 10 ds start, 0) := by
  induction ds generalizing start with
  | nil => simp [gather]
  | cons d ds ih =>
      rw [Nat.ofDigitChars_cons, Nat.mul_comm] at h ⊢
      have hnext := Nat.lt_of_le_of_lt (le_ofDigitChars _ ds) h
      rw [← ih h, gather, List.foldl_cons, gather]
      simp only [Char.reduceToNat] at hnext
      simp [hnext]

theorem head?_toDigits {n : Nat} (hn : 0 < n) : (Nat.toDigits 10 n).head? ≠ some '0' := by
  induction n using Nat.strongRecOn with
  | ind n ih =>
      rcases Nat.lt_or_ge n 10 with hsmall | hlarge
      · have hdigit : ∀ k : Fin 10, 0 < k.val → k.val.digitChar ≠ '0' := by decide
        rw [Nat.toDigits_of_lt_base hsmall]
        simpa using hdigit ⟨n, hsmall⟩ hn
      · rw [Nat.toDigits_of_base_le (by decide) hlarge,
          List.head?_append_of_ne_nil _ Nat.toDigits_ne_nil]
        exact ih (n / 10) (by omega) (by omega)

/-- No digits follow a leading zero. -/
theorem length_toDigits_of_head? {n : Nat} (h : (Nat.toDigits 10 n).head? = some '0') :
    (Nat.toDigits 10 n).length ≤ 1 := by
  rcases Nat.eq_zero_or_pos n with rfl | hn
  · decide
  · exact absurd h (head?_toDigits hn)

theorem exponent?_of_isBeyond {rest : List Char} (h : IsBeyond rest) :
    exponent? rest = some (none, rest) := by
  cases rest with
  | nil => rfl
  | cons c rest =>
      have hc : ¬ (c = 'e' ∨ c = 'E') := by
        rintro (rfl | rfl)
        · exact h.mark.1 rfl
        · exact h.mark.2 rfl
      simp [exponent?, hc]

theorem digits_toDigits (n : Nat) {rest : List Char} (hrest : IsBeyond rest) :
    digits (Nat.toDigits 10 n ++ rest) = (Nat.toDigits 10 n, rest) :=
  digits_append (fun _ hd => Nat.isDigit_of_mem_toDigits (by decide) (by decide) hd) hrest

theorem gather_toDigits {n : Nat} (hn : n < UInt64.size) :
    gather 0 (Nat.toDigits 10 n) = (n, 0) := by
  have hvalue : Nat.ofDigitChars 10 (Nat.toDigits 10 n) 0 = n := Nat.ofDigitChars_ten_toDigits
  rw [gather_eq (by rw [hvalue]; exact hn), hvalue]

theorem number?_natural {n : Nat} {rest : List Char} (hn : n < UInt64.size)
    (hrest : IsBeyond rest) : number? (Nat.toDigits 10 n ++ rest) = some (.int n, rest) := by
  have hunsigned : ∀ after, Nat.toDigits 10 n ++ rest ≠ '-' :: after := by
    intro after h
    obtain ⟨hempty, -⟩ | ⟨ds, hds, -⟩ := List.append_eq_cons_iff.1 h
    · exact Nat.toDigits_ne_nil hempty
    · have hminus : '-' ∈ Nat.toDigits 10 n := by simp [hds]
      exact absurd (Nat.isDigit_of_mem_toDigits (by decide) (by decide) hminus) (by decide)
  simp only [number?]
  simpa [digits_toDigits n hrest, gather_toDigits hn, exponent?_of_isBeyond hrest, hrest.point]
    using length_toDigits_of_head?

theorem number?_negative {n : Nat} {rest : List Char} (hpos : 0 < n) (hn : n ≤ 2 ^ 63)
    (hrest : IsBeyond rest) :
    number? ('-' :: (Nat.toDigits 10 n ++ rest)) = some (.int (-n), rest) := by
  have hsize : n < UInt64.size := Nat.lt_of_le_of_lt hn (by decide)
  have hfits : n ≤ 9223372036854775808 := hn
  simpa [number?, digits_toDigits n hrest, gather_toDigits hsize, exponent?_of_isBeyond hrest,
    hrest.point, hpos, hfits] using length_toDigits_of_head?

/-- A value that its text stands for, with room for so many levels: the whole numbers in it fit 64
bits, and there are no others. -/
inductive IsExact : (depth : Nat) → Json → Prop where
  | null {depth : Nat} : IsExact depth null
  | bool {depth : Nat} (b : Bool) : IsExact depth (bool b)
  | int {depth : Nat} {n : Int} (low : -2 ^ 63 ≤ n) (high : n < 2 ^ 64) : IsExact depth (int n)
  | str {depth : Nat} (s : String) : IsExact depth (str s)
  | arr {depth : Nat} {items : List Json} (hitems : ∀ item ∈ items, IsExact depth item) :
      IsExact (depth + 1) (arr items)
  | obj {depth : Nat} {members : List (String × Json)}
      (hmembers : ∀ member ∈ members, IsExact depth member.2) : IsExact (depth + 1) (obj members)

/-- With enough fuel the text of a value is read as the value, up to what follows it. -/
def IsReread (depth : Nat) (j : Json) : Prop :=
  ∀ fuel rest, 2 * j.render.toList.length ≤ fuel → IsBeyond rest →
    valueFrom fuel depth (j.render.toList ++ rest) = (j.draft, rest)

/-- The text of a number is a run of digits, perhaps behind a sign. -/
theorem toList_toString (n : Int) :
    (∃ m : Nat, n = m ∧ (toString n).toList = Nat.toDigits 10 m) ∨
      ∃ m : Nat, 0 < m ∧ n = -m ∧ (toString n).toList = '-' :: Nat.toDigits 10 m := by
  cases n with
  | ofNat m => exact .inl ⟨m, rfl, Nat.toList_repr⟩
  | negSucc m =>
      refine .inr ⟨m + 1, by omega, by omega, ?_⟩
      change ("-" ++ Nat.repr (m + 1)).toList = _
      rw [String.toList_append, Nat.toList_repr]
      rfl

theorem begins_toString (n : Int) :
    ∃ c cs, (toString n).toList = c :: cs ∧ (c = '-' ∨ c.isDigit = true) := by
  obtain ⟨m, -, hm⟩ | ⟨m, -, -, hm⟩ := toList_toString n
  · obtain ⟨c, cs, hcs⟩ := List.exists_cons_of_ne_nil (Nat.toDigits_ne_nil (n := m) (b := 10))
    have hdigit : c ∈ Nat.toDigits 10 m := by simp [hcs]
    exact ⟨c, cs, by rw [hm, hcs],
      .inr (Nat.isDigit_of_mem_toDigits (by decide) (by decide) hdigit)⟩
  · exact ⟨'-', _, hm, .inl rfl⟩

theorem ne_of_begins {c d : Char} (hc : c = '-' ∨ c.isDigit = true) (hminus : d ≠ '-')
    (hdigit : d.isDigit = false) : c ≠ d := by
  rintro rfl
  rcases hc with hc | hc
  · exact hminus hc
  · exact absurd hc (by simp [hdigit])

theorem valueFrom_toString {fuel depth : Nat} {n : Int} {rest : List Char}
    (hlow : -2 ^ 63 ≤ n) (hhigh : n < 2 ^ 64) (hrest : IsBeyond rest) :
    valueFrom (fuel + 1) depth ((toString n).toList ++ rest) = (.int n, rest) := by
  have hnumber : number? ((toString n).toList ++ rest) = some (.int n, rest) := by
    obtain ⟨m, rfl, hm⟩ | ⟨m, hpos, rfl, hm⟩ := toList_toString n
    · rw [hm, number?_natural (Int.ofNat_lt.1 hhigh) hrest]
    · rw [hm, List.cons_append, number?_negative hpos (by omega) hrest]
  obtain ⟨c, cs, hcs, hc⟩ := begins_toString n
  rw [hcs, List.cons_append] at hnumber ⊢
  have hblank : skipBlanks (c :: (cs ++ rest)) = c :: (cs ++ rest) := by
    simp [skipBlanks, ne_of_begins hc]
  simp [valueFrom, hblank, ne_of_begins hc, hnumber]

theorem skipBlanks_cons {c : Char} (hc : c ∉ [' ', '\n', '\t', '\r']) (cs : List Char) :
    skipBlanks (c :: cs) = c :: cs := by
  simp only [List.mem_cons, List.not_mem_nil, or_false, not_or] at hc
  simp [skipBlanks, hc]

theorem toList_render_arr (items : List Json) :
    (arr items).render.toList = '[' :: ((renderItems items).toList ++ [']']) := by
  rw [render, String.toList_append, String.toList_append]
  rfl

theorem toList_render_obj (members : List (String × Json)) :
    (obj members).render.toList = '\x7b' :: ((renderMembers members).toList ++ ['\x7d']) := by
  rw [render, String.toList_append, String.toList_append]
  rfl

/-- The text of a value begins with a character that is no blank and closes nothing. -/
theorem begins_render {j : Json} (hj : ∀ x, j ≠ .real x) :
    ∃ c cs, j.render.toList = c :: cs ∧ c ∉ [' ', '\n', '\t', '\r'] ∧ c ≠ ']' := by
  cases j with
  | null => exact ⟨'n', _, rfl, by decide, by decide⟩
  | bool b =>
      cases b
      · exact ⟨'f', _, rfl, by decide, by decide⟩
      · exact ⟨'t', _, rfl, by decide, by decide⟩
  | int n =>
      obtain ⟨c, cs, hcs, hc⟩ := begins_toString n
      refine ⟨c, cs, hcs, ?_, ne_of_begins hc (by decide) (by decide)⟩
      simp [ne_of_begins hc]
  | real x => exact absurd rfl (hj x)
  | str s => exact ⟨'"', _, toList_quoted s, by decide, by decide⟩
  | arr items => exact ⟨'[', _, toList_render_arr items, by decide, by decide⟩
  | obj members => exact ⟨'\x7b', _, toList_render_obj members, by decide, by decide⟩

theorem toList_renderItems_cons (item next : Json) (items : List Json) :
    (renderItems (item :: next :: items)).toList =
      item.render.toList ++ ',' :: (renderItems (next :: items)).toList := by
  rw [renderItems, String.toList_append, String.toList_append, List.append_assoc]
  · rfl
  · exact nofun

theorem toList_renderMembers_cons (name : String) (value : Json) (next : String × Json)
    (members : List (String × Json)) :
    (renderMembers ((name, value) :: next :: members)).toList =
      (quoted name).toList ++ ':' ::
        (value.render.toList ++ ',' :: (renderMembers (next :: members)).toList) := by
  rw [renderMembers, String.toList_append, String.toList_append, String.toList_append,
    String.toList_append]
  · simp
  · exact nofun

theorem itemsFrom_render {depth : Nat} {item : Json} {items : List Json}
    (hitems : ∀ j ∈ item :: items, IsReread depth j) (fuel : Nat)
    (hfuel : 2 * (renderItems (item :: items)).toList.length < fuel) (rest : List Char)
    (done : List Draft) :
    itemsFrom fuel depth ((renderItems (item :: items)).toList ++ ']' :: rest) done =
      (.arr (done.reverse ++ draftItems (item :: items)) true, rest) := by
  induction items generalizing item fuel done with
  | nil =>
      obtain ⟨fuel, rfl⟩ : ∃ n, fuel = n + 1 := ⟨fuel - 1, by omega⟩
      rw [renderItems] at hfuel ⊢
      have hread := hitems item List.mem_cons_self fuel (']' :: rest) (by omega)
        (isBeyond_cons (by decide) (by decide) rest)
      rw [itemsFrom, hread]
      simp [isWhole_draft, skipBlanks, draftItems]
  | cons next items ih =>
      obtain ⟨fuel, rfl⟩ : ∃ n, fuel = n + 1 := ⟨fuel - 1, by omega⟩
      rw [toList_renderItems_cons, List.length_append, List.length_cons] at hfuel
      rw [toList_renderItems_cons, List.append_assoc, List.cons_append, itemsFrom,
        hitems item List.mem_cons_self fuel _ (by omega) (isBeyond_cons (by decide) (by decide) _)]
      have hnext := ih (fun j hj => hitems j (List.mem_cons_of_mem item hj)) fuel (by omega)
        (item.draft :: done)
      simp [isWhole_draft, skipBlanks, hnext, draftItems]

theorem membersFrom_render {depth : Nat} {member : String × Json}
    {members : List (String × Json)}
    (hmembers : ∀ m ∈ member :: members, IsReread depth m.2) (fuel : Nat)
    (hfuel : 2 * (renderMembers (member :: members)).toList.length < fuel) (rest : List Char)
    (done : List (Draft × Draft)) :
    membersFrom fuel depth ((renderMembers (member :: members)).toList ++ '\x7d' :: rest) done =
      (.obj (done.reverse ++ draftMembers (member :: members)) true, rest) := by
  induction members generalizing member fuel done with
  | nil =>
      obtain ⟨fuel, rfl⟩ : ∃ n, fuel = n + 1 := ⟨fuel - 1, by omega⟩
      obtain ⟨name, value⟩ := member
      have hvalue : IsReread depth value := hmembers (name, value) List.mem_cons_self
      rw [renderMembers] at hfuel ⊢
      simp only [String.toList_append, List.length_append] at hfuel
      have hread := hvalue fuel ('\x7d' :: rest) (by omega)
        (isBeyond_cons (by decide) (by decide) rest)
      simp [toList_quoted, membersFrom, skipBlanks, string?_escaped, hread, isWhole_draft,
        draftMembers]
  | cons next members ih =>
      obtain ⟨fuel, rfl⟩ : ∃ n, fuel = n + 1 := ⟨fuel - 1, by omega⟩
      obtain ⟨name, value⟩ := member
      have hvalue : IsReread depth value := hmembers (name, value) List.mem_cons_self
      rw [toList_renderMembers_cons] at hfuel ⊢
      simp only [List.length_append, List.length_cons] at hfuel
      have hread := hvalue fuel
        (',' :: ((renderMembers (next :: members)).toList ++ '\x7d' :: rest))
        (by omega) (isBeyond_cons (by decide) (by decide) _)
      have hnext := ih (fun m hm => hmembers m (List.mem_cons_of_mem _ hm)) fuel (by omega)
        ((.str name, value.draft) :: done)
      simp [toList_quoted, membersFrom, skipBlanks, string?_escaped, hread, hnext, isWhole_draft,
        draftMembers]

theorem isReread_arr {depth : Nat} {items : List Json} (hreal : ∀ item ∈ items, ∀ x, item ≠ real x)
    (hitems : ∀ item ∈ items, IsReread depth item) : IsReread (depth + 1) (arr items) := by
  intro fuel rest hfuel hrest
  rw [toList_render_arr, List.length_cons, List.length_append] at hfuel
  obtain ⟨fuel, rfl⟩ : ∃ n, fuel = n + 1 := ⟨fuel - 1, by omega⟩
  rw [toList_render_arr]
  cases items with
  | nil => simp [valueFrom, skipBlanks, renderItems, draft, draftItems]
  | cons item items =>
      have hread := itemsFrom_render hitems fuel (by omega) rest []
      obtain ⟨c, cs, hcs, hblank, hclose⟩ : ∃ c cs, (renderItems (item :: items)).toList = c :: cs ∧
          c ∉ [' ', '\n', '\t', '\r'] ∧ c ≠ ']' := by
        obtain ⟨c, cs, hcs, hc⟩ := begins_render (hreal item List.mem_cons_self)
        cases items with
        | nil => exact ⟨c, cs, hcs, hc⟩
        | cons next items =>
            rw [toList_renderItems_cons, hcs]
            exact ⟨c, _, rfl, hc⟩
      rw [List.cons_append, List.append_assoc, List.singleton_append, valueFrom,
        skipBlanks_cons (by decide)]
      rw [hcs, List.cons_append] at hread ⊢
      simp [skipBlanks_cons hblank, hclose, hread, draft]

theorem isReread_obj {depth : Nat} {members : List (String × Json)}
    (hmembers : ∀ member ∈ members, IsReread depth member.2) :
    IsReread (depth + 1) (obj members) := by
  intro fuel rest hfuel hrest
  rw [toList_render_obj, List.length_cons, List.length_append] at hfuel
  obtain ⟨fuel, rfl⟩ : ∃ n, fuel = n + 1 := ⟨fuel - 1, by omega⟩
  rw [toList_render_obj]
  cases members with
  | nil => simp [valueFrom, skipBlanks, renderMembers, draft, draftMembers]
  | cons member members =>
      have hread := membersFrom_render hmembers fuel (by omega) rest []
      obtain ⟨cs, hcs⟩ : ∃ cs, (renderMembers (member :: members)).toList = '"' :: cs := by
        cases members with
        | nil =>
            rw [renderMembers, String.toList_append, String.toList_append, toList_quoted]
            exact ⟨_, rfl⟩
        | cons next members =>
            rw [toList_renderMembers_cons, toList_quoted]
            exact ⟨_, rfl⟩
      rw [hcs, List.cons_append] at hread ⊢
      simp [valueFrom, skipBlanks, hread, draft]

theorem IsExact.ne_real {depth : Nat} {j : Json} (h : IsExact depth j) (x : Float) :
    j ≠ .real x := by
  rintro rfl
  cases h

/-- A value without parts is read at any depth, whatever fuel is left. -/
theorem IsExact.isReread_of_succ {depth : Nat} {j : Json} (hj : IsExact depth j)
    (h : ∀ fuel rest, IsBeyond rest →
      valueFrom (fuel + 1) depth (j.render.toList ++ rest) = (j.draft, rest)) :
    IsReread depth j := by
  intro fuel rest hfuel hrest
  obtain ⟨c, cs, hcs, -⟩ := begins_render hj.ne_real
  rw [hcs, List.length_cons] at hfuel
  obtain ⟨fuel, rfl⟩ : ∃ n, fuel = n + 1 := ⟨fuel - 1, by omega⟩
  exact h fuel rest hrest

theorem IsExact.isReread {depth : Nat} {j : Json} (h : IsExact depth j) : IsReread depth j := by
  induction h with
  | null => exact IsExact.null.isReread_of_succ fun _ _ _ => rfl
  | bool b =>
      apply (IsExact.bool b).isReread_of_succ
      intro fuel rest _
      cases b <;> rfl
  | int hlow hhigh =>
      apply (IsExact.int hlow hhigh).isReread_of_succ
      intro fuel rest hrest
      exact valueFrom_toString hlow hhigh hrest
  | str s =>
      apply (IsExact.str s).isReread_of_succ
      intro fuel rest _
      rw [render, toList_quoted, List.cons_append, List.append_assoc, List.singleton_append,
        valueFrom, skipBlanks_cons (by decide)]
      simp [string?_escaped, draft]
  | arr hitems ih => exact isReread_arr (fun item hitem => (hitems item hitem).ne_real) ih
  | obj _ ih => exact isReread_obj ih

/-- A value is read from its text as it was. -/
theorem read_render {j : Json} (h : IsExact depthLimit j) : read j.render = j.draft := by
  have hread := h.isReread (2 * j.render.toList.length + 2) [] (by omega) isBeyond_nil
  rw [List.append_nil] at hread
  simp [read, readFirst, hread, skipBlanks]

end Mailroom.Json
