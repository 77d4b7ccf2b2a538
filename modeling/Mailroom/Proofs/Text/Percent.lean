import Mailroom.Mta.Target
import Mailroom.Text.Percent

/-!
What percent-encoded texts stand for.  To encode what may not stand in a path changes nothing in the
bytes that a text stands for; these are the bytes of the text itself exactly if it has no codes.
-/

namespace Mailroom

namespace Text

/-- A text goes on with the two digits of a code. -/
def BeginsCode (cs : List Char) : Prop :=
  ∃ a b rest, cs = a :: b :: rest ∧ (hexNumber? [a, b]).isSome

/-- No percent sign is followed by two digits. -/
def IsLiteral (cs : List Char) : Prop :=
  ∀ a b, ['%', a, b] <:+: cs → hexNumber? [a, b] = none

variable {c : Char} {cs : List Char}

theorem toUTF8_singleton (c : Char) :
    (String.singleton c).toUTF8.toList = String.utf8EncodeChar c := by
  rw [toList_toUTF8, String.toList_singleton, List.flatMap_singleton]

theorem percentBytes_single (h : c = '%' → ∀ a b rest, cs ≠ a :: b :: rest) :
    percentBytes (c :: cs) = String.utf8EncodeChar c ++ percentBytes cs := by
  rw [percentBytes, toUTF8_singleton]
  exact fun a b rest hc hcs => h hc a b rest hcs

theorem percentBytes_cons (hc : c ≠ '%') (cs : List Char) :
    percentBytes (c :: cs) = String.utf8EncodeChar c ++ percentBytes cs :=
  percentBytes_single fun hsign => absurd hsign hc

theorem percentBytes_code {a b : Char} {n : Nat} (hn : hexNumber? [a, b] = some n)
    (cs : List Char) :
    percentBytes ('%' :: a :: b :: cs) = UInt8.ofNat n :: percentBytes cs := by
  rw [percentBytes, hn]

theorem percentBytes_sign (hcs : ¬BeginsCode cs) :
    percentBytes ('%' :: cs) = String.utf8EncodeChar '%' ++ percentBytes cs := by
  match cs, hcs with
  | [], _ | [_], _ => exact percentBytes_single fun _ _ _ _ h => nomatch h
  | a :: b :: rest, hcs =>
      have hnone : hexNumber? [a, b] = none :=
        Option.not_isSome_iff_eq_none.1 fun hsome => hcs ⟨a, b, rest, rfl, hsome⟩
      rw [percentBytes, hnone]
      rfl

/-- The way in which a text is decoded: a code at once, all else a character at a time. -/
theorem percent_induction {motive : List Char → Prop} (nil : motive [])
    (other : ∀ c cs, c ≠ '%' → motive cs → motive (c :: cs))
    (sign : ∀ cs, ¬BeginsCode cs → motive cs → motive ('%' :: cs))
    (code : ∀ a b n cs, hexNumber? [a, b] = some n → motive cs → motive ('%' :: a :: b :: cs))
    (cs : List Char) : motive cs := by
  induction hlength : cs.length using Nat.strongRecOn generalizing cs with
  | ind length ih =>
      cases cs with
      | nil => exact nil
      | cons c cs =>
          have hrest : motive cs := ih _ (hlength ▸ Nat.lt_succ_self _) cs rfl
          by_cases hc : c = '%'
          · subst hc
            by_cases hcode : BeginsCode cs
            · obtain ⟨a, b, rest, rfl, hsome⟩ := hcode
              obtain ⟨n, hn⟩ := Option.isSome_iff_exists.1 hsome
              refine code a b n rest hn (ih _ ?_ rest rfl)
              simp only [List.length_cons] at hlength
              omega
            · exact sign cs hcode hrest
          · exact other c cs hc hrest

theorem isLiteral_nil : IsLiteral [] := by
  intro a b h
  cases List.infix_nil.1 h

theorem isLiteral_cons :
    IsLiteral (c :: cs) ↔ (c = '%' → ¬BeginsCode cs) ∧ IsLiteral cs := by
  constructor
  · intro h
    refine ⟨?_, fun a b hcode => h a b (List.infix_cons hcode)⟩
    rintro rfl ⟨a, b, rest, rfl, hsome⟩
    rw [h a b ⟨[], rest, rfl⟩] at hsome
    cases hsome
  · rintro ⟨hhead, hrest⟩ a b hcode
    rcases List.infix_cons_iff.1 hcode with ⟨rest, hprefix⟩ | hinfix
    · obtain ⟨rfl, rfl⟩ := List.cons.inj hprefix
      exact Option.not_isSome_iff_eq_none.1 fun hsome => hhead rfl ⟨a, b, rest, rfl, hsome⟩
    · exact hrest a b hinfix

theorem isLiteral_of_not_mem (h : '%' ∉ cs) : IsLiteral cs :=
  fun _ _ hcode => absurd (hcode.subset List.mem_cons_self) h

theorem percentBytes_of_isLiteral (h : IsLiteral cs) :
    percentBytes cs = cs.flatMap String.utf8EncodeChar := by
  induction cs with
  | nil => rfl
  | cons c cs ih =>
      obtain ⟨hsign, hrest⟩ := isLiteral_cons.1 h
      rw [List.flatMap_cons, ← ih hrest]
      by_cases hc : c = '%'
      · rw [hc, percentBytes_sign (hsign hc)]
      · exact percentBytes_cons hc cs

theorem length_utf8EncodeChar_pos (c : Char) : 0 < (String.utf8EncodeChar c).length := by
  rw [String.length_utf8EncodeChar]
  exact Char.utf8Size_pos c

/-- Decoding never makes a text longer, and a code makes it shorter. -/
theorem length_percentBytes (cs : List Char) :
    (percentBytes cs).length ≤ (cs.flatMap String.utf8EncodeChar).length ∧
      ((cs.flatMap String.utf8EncodeChar).length ≤ (percentBytes cs).length → IsLiteral cs) := by
  induction cs using percent_induction with
  | nil => exact ⟨Nat.le_refl _, fun _ => isLiteral_nil⟩
  | other c cs hc ih =>
      rw [percentBytes_cons hc, List.flatMap_cons, List.length_append, List.length_append]
      refine ⟨Nat.add_le_add_left ih.1 _, fun h => ?_⟩
      exact isLiteral_cons.2 ⟨fun hsign => absurd hsign hc, ih.2 (Nat.le_of_add_le_add_left h)⟩
  | sign cs hcs ih =>
      rw [percentBytes_sign hcs, List.flatMap_cons, List.length_append, List.length_append]
      refine ⟨Nat.add_le_add_left ih.1 _, fun h => ?_⟩
      exact isLiteral_cons.2 ⟨fun _ => hcs, ih.2 (Nat.le_of_add_le_add_left h)⟩
  | code a b n cs hn ih =>
      have hshorter : (percentBytes ('%' :: a :: b :: cs)).length <
          (('%' :: a :: b :: cs).flatMap String.utf8EncodeChar).length := by
        have hsign := length_utf8EncodeChar_pos '%'
        have ha := length_utf8EncodeChar_pos a
        have hb := length_utf8EncodeChar_pos b
        simp only [percentBytes_code hn, List.flatMap_cons, List.length_cons, List.length_append]
        omega
      exact ⟨Nat.le_of_lt hshorter, fun h => absurd h (Nat.not_le.2 hshorter)⟩

end Text

namespace Target

open Text (BeginsCode hexNumber? hexValue? percentBytes)

variable {c : Char} {cs : List Char}

theorem encoded_cons (foreign : Char → Bool) (c : Char) (cs : List Char) :
    encoded foreign (c :: cs) =
      (if foreign c then percent c else [c]) ++ encoded foreign cs := rfl

theorem hexNumber?_upper : ∀ n : Fin 256,
    hexNumber? ((Text.hexDigits 2 n).map Char.toUpper) = some n.val := by
  decide +kernel

theorem percentBytes_byte (b : UInt8) (cs : List Char) :
    percentBytes ('%' :: (Text.hexDigits 2 b.toNat).map Char.toUpper ++ cs) =
      b :: percentBytes cs := by
  have hdigits : (Text.hexDigits 2 b.toNat).map Char.toUpper =
      [(Text.hexDigit (b.toNat / 16 % 16)).toUpper, (Text.hexDigit (b.toNat % 16)).toUpper] := rfl
  have hread := hexNumber?_upper ⟨b.toNat, b.toNat_lt⟩
  rw [hdigits] at hread ⊢
  have hcode := Text.percentBytes_code hread cs
  rwa [UInt8.ofNat_toNat] at hcode

/-- What is encoded stands for its bytes. -/
theorem percentBytes_percent (c : Char) (cs : List Char) :
    percentBytes (percent c ++ cs) = String.utf8EncodeChar c ++ percentBytes cs := by
  rw [percent, Text.toUTF8_singleton]
  induction String.utf8EncodeChar c with
  | nil => rfl
  | cons b bs ih =>
      rw [List.flatMap_cons, List.append_assoc, percentBytes_byte, ih]
      rfl

theorem percent_eq_cons (c : Char) : ∃ rest, percent c = '%' :: rest := by
  rw [percent, Text.toUTF8_singleton]
  cases hbytes : String.utf8EncodeChar c with
  | nil => exact absurd (hbytes ▸ Text.length_utf8EncodeChar_pos c) (by decide)
  | cons b bs => exact ⟨_, rfl⟩

theorem hexValue?_sign : hexValue? '%' = none := by decide

/-- Digits stay as they are. -/
theorem foreignToPath_of_hexValue? (h : (hexValue? c).isSome) : foreignToPath c = false := by
  have hrange : 0x20 ≤ c.toNat ∧ c.toNat ≤ 0x7E := by grind [hexValue?]
  have hmarks : ∀ m ∈ [' ', '"', '<', '>', '\x60', '#', '?', '\x7b', '\x7d'], hexValue? m = none := by
    simp [hexValue?]
  have hc : c ∉ [' ', '"', '<', '>', '\x60', '#', '?', '\x7b', '\x7d'] := by
    intro hc
    rw [hmarks c hc] at h
    cases h
  simp only [foreignToPath, isForeign, Bool.or_eq_false_iff, decide_eq_false_iff_not,
    List.contains_eq_mem]
  exact ⟨⟨by omega, by omega⟩, hc⟩

theorem hexNumber?_pair (a b : Char) :
    hexNumber? [a, b] = (hexValue? a).bind fun x => (hexValue? b).map fun y => x * 16 + y := by
  cases ha : hexValue? a <;> cases hb : hexValue? b <;> simp [hexNumber?, ha, hb]

theorem digits_of_hexNumber? {a b : Char} (h : (hexNumber? [a, b]).isSome) :
    (hexValue? a).isSome ∧ (hexValue? b).isSome := by
  rw [hexNumber?_pair] at h
  obtain ⟨n, hn⟩ := Option.isSome_iff_exists.1 h
  obtain ⟨x, hx, hn⟩ := Option.bind_eq_some_iff.1 hn
  obtain ⟨y, hy, -⟩ := Option.map_eq_some_iff.1 hn
  exact ⟨hx ▸ rfl, hy ▸ rfl⟩

theorem encoded_digit (hc : (hexValue? c).isSome) (cs : List Char) :
    encoded foreignToPath (c :: cs) = c :: encoded foreignToPath cs := by
  rw [encoded_cons, foreignToPath_of_hexValue? hc]
  rfl

/-- A digit at the beginning of an encoded text stood there before. -/
theorem digit_of_encoded {d : Char} {rest : List Char} (hd : (hexValue? d).isSome)
    (h : encoded foreignToPath cs = d :: rest) :
    ∃ before, cs = d :: before ∧ rest = encoded foreignToPath before := by
  cases cs with
  | nil => cases h
  | cons c cs =>
      rw [encoded_cons] at h
      cases hc : foreignToPath c with
      | true =>
          obtain ⟨digits, hpercent⟩ := percent_eq_cons c
          rw [hc, if_pos rfl, hpercent] at h
          rw [← (List.cons.inj h).1, hexValue?_sign] at hd
          cases hd
      | false =>
          rw [hc] at h
          obtain ⟨rfl, rfl⟩ := List.cons.inj h
          exact ⟨cs, rfl, rfl⟩

/-- To encode a text adds no digits to a percent sign. -/
theorem beginsCode_of_encoded (h : BeginsCode (encoded foreignToPath cs)) : BeginsCode cs := by
  obtain ⟨a, b, rest, hencoded, hsome⟩ := h
  obtain ⟨ha, hb⟩ := digits_of_hexNumber? hsome
  obtain ⟨cs, rfl, hrest⟩ := digit_of_encoded ha hencoded
  obtain ⟨cs, rfl, -⟩ := digit_of_encoded hb hrest.symm
  exact ⟨a, b, cs, rfl, hsome⟩

/-- An encoded text stands for the same bytes. -/
theorem percentBytes_encoded (cs : List Char) :
    percentBytes (encoded foreignToPath cs) = percentBytes cs := by
  induction cs using Text.percent_induction with
  | nil => rfl
  | other c cs hc ih =>
      rw [encoded_cons, Text.percentBytes_cons hc, ← ih]
      split
      · exact percentBytes_percent c _
      · exact Text.percentBytes_cons hc _
  | sign cs hcs ih =>
      have hsign : encoded foreignToPath ('%' :: cs) = '%' :: encoded foreignToPath cs := rfl
      rw [hsign, Text.percentBytes_sign hcs, ← ih]
      exact Text.percentBytes_sign fun hcode => hcs (beginsCode_of_encoded hcode)
  | code a b n cs hn ih =>
      obtain ⟨ha, hb⟩ := digits_of_hexNumber? (Option.isSome_of_eq_some hn)
      have hcode : encoded foreignToPath ('%' :: a :: b :: cs) =
          '%' :: a :: b :: encoded foreignToPath cs := by
        rw [← encoded_digit hb, ← encoded_digit ha]
        rfl
      rw [hcode, Text.percentBytes_code hn, Text.percentBytes_code hn, ih]

theorem isAlphanum_upper : ∀ d : Fin 16, (Text.hexDigit d).toUpper.isAlphanum = true := by decide

theorem mem_percent {d : Char} (h : d ∈ percent c) : d = '%' ∨ d.isAlphanum = true := by
  obtain ⟨b, -, hd⟩ := List.mem_flatMap.1 h
  rcases List.mem_cons.1 hd with rfl | hd
  · exact .inl rfl
  · have hdigit : ∀ n, (Text.hexDigit (n % 16)).toUpper.isAlphanum = true := fun n =>
      isAlphanum_upper ⟨n % 16, Nat.mod_lt n (by decide)⟩
    rcases List.mem_cons.1 hd with rfl | hd
    · exact .inr (hdigit _)
    · exact .inr (List.mem_singleton.1 hd ▸ hdigit _)

/-- An encoded text has no marks but those that may stay, and percent signs. -/
theorem mem_encoded {d : Char} (h : d ∈ encoded foreignToPath cs) :
    (d ∈ cs ∧ foreignToPath d = false) ∨ d = '%' ∨ d.isAlphanum = true := by
  obtain ⟨c, hc, hd⟩ := List.mem_flatMap.1 h
  cases hforeign : foreignToPath c with
  | true =>
      rw [hforeign] at hd
      exact .inr (mem_percent hd)
  | false =>
      rw [hforeign] at hd
      obtain rfl := List.mem_singleton.1 hd
      exact .inl ⟨hc, hforeign⟩

theorem not_mem_encoded {mark : Char} (hmark : mark ≠ '%' ∧ mark.isAlphanum = false)
    (h : mark ∉ cs) : mark ∉ encoded foreignToPath cs := by
  intro hmem
  rcases mem_encoded hmem with ⟨hcs, -⟩ | hsign | halphanum
  · exact h hcs
  · exact hmark.1 hsign
  · rw [hmark.2] at halphanum
    cases halphanum

end Target

end Mailroom
