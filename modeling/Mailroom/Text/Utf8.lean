/-!
Bytes read as UTF-8.  Where they are no UTF-8, each longest piece that begins a character, or else
each single byte, stands for one missing character.  Main statement on the bytes of a text: none of
them is zero, unless the text has the zero character.
-/

namespace Mailroom.Text

/-- A character of which some bytes are still owed: how many, the bounds of the next one, and the
value so far. -/
structure Unfinished where
  owed : Nat
  low : Nat
  high : Nat
  value : Nat
deriving DecidableEq, Repr

/-- The character that a byte begins, if it begins one of several bytes. -/
def lead? (b : Nat) : Option Unfinished :=
  if b < 0xC2 then none
  else if b ≤ 0xDF then some ⟨1, 0x80, 0xBF, b - 0xC0⟩
  else if b = 0xE0 then some ⟨2, 0xA0, 0xBF, 0⟩
  else if b = 0xED then some ⟨2, 0x80, 0x9F, 13⟩
  else if b ≤ 0xEF then some ⟨2, 0x80, 0xBF, b - 0xE0⟩
  else if b = 0xF0 then some ⟨3, 0x90, 0xBF, 0⟩
  else if b ≤ 0xF3 then some ⟨3, 0x80, 0xBF, b - 0xF0⟩
  else if b = 0xF4 then some ⟨3, 0x80, 0x8F, 4⟩
  else none

/-- A byte between characters: a character, a missing one, or the beginning of one. -/
def begun (b : UInt8) : List (Option Char) × Option Unfinished :=
  if b < 0x80 then ([some (Char.ofNat b.toNat)], none)
  else match lead? b.toNat with
    | some u => ([], some u)
    | none => ([none], none)

/-- The characters of some bytes that follow an unfinished character or none. -/
def charactersFrom : List UInt8 → Option Unfinished → List (Option Char)
  | [], none => []
  | [], some _ => [none]
  | b :: bs, none => (begun b).1 ++ charactersFrom bs (begun b).2
  | b :: bs, some u =>
      if u.low ≤ b.toNat ∧ b.toNat ≤ u.high then
        let value := u.value * 64 + (b.toNat - 0x80)
        if u.owed ≤ 1 then some (Char.ofNat value) :: charactersFrom bs none
        else charactersFrom bs (some ⟨u.owed - 1, 0x80, 0xBF, value⟩)
      else none :: ((begun b).1 ++ charactersFrom bs (begun b).2)

/-- The characters of some bytes; nothing where one is missing. -/
def characters (bs : List UInt8) : List (Option Char) := charactersFrom bs none

/-- The text of some bytes; none if a character is missing. -/
def ofUtf8? (bs : List UInt8) : Option String :=
  ((characters bs).mapM id).map String.ofList

/-- The text of some bytes, with a mark for each missing character. -/
def ofUtf8Lossy (bs : List UInt8) : String :=
  String.ofList ((characters bs).map fun c => c.getD '\uFFFD')

theorem toList_loop (bytes : ByteArray) (i : Nat) (before : List UInt8) :
    ByteArray.toList.loop bytes i before = before.reverse ++ bytes.data.toList.drop i := by
  induction i, before using ByteArray.toList.loop.induct bytes with
  | case1 i before hi ih =>
      have hlength : i < bytes.data.toList.length := by rwa [Array.length_toList]
      rw [ByteArray.toList.loop, if_pos hi, ih, List.drop_eq_getElem_cons hlength,
        List.reverse_cons, List.append_assoc, List.singleton_append, ByteArray.get!,
        Array.getElem_toList, getElem!_pos]
  | case2 i before hi =>
      have hlength : bytes.data.toList.length ≤ i := by
        rw [Array.length_toList]
        exact Nat.le_of_not_lt hi
      rw [ByteArray.toList.loop, if_neg hi, List.drop_of_length_le hlength, List.append_nil]

theorem toList_toUTF8 (s : String) : s.toUTF8.toList = s.toList.flatMap String.utf8EncodeChar := by
  rw [ByteArray.toList, toList_loop, List.reverse_nil, List.nil_append, List.drop_zero,
    String.toUTF8_eq_toByteArray, ← String.utf8Encode_toList, List.utf8Encode,
    List.data_toByteArray]

theorem toUTF8_injective {s t : String} (h : s.toUTF8.toList = t.toUTF8.toList) : s = t := by
  rw [toList_toUTF8, toList_toUTF8] at h
  apply String.toByteArray_inj.1
  rw [← String.utf8Encode_toList, ← String.utf8Encode_toList, List.utf8Encode, List.utf8Encode, h]

/-- A character of several bytes has the highest bit set in each of them. -/
theorem utf8EncodeChar_cases (c : Char) :
    (c.toNat ≤ 0x7f ∧ String.utf8EncodeChar c = [UInt8.ofNat c.toNat]) ∨
      ∀ b ∈ String.utf8EncodeChar c, 0x80 ≤ b.toNat := by
  unfold String.utf8EncodeChar
  dsimp only
  split
  · rename_i hsmall
    exact .inl ⟨hsmall, rfl⟩
  · right
    split
    · simp only [List.forall_mem_cons, UInt8.toNat_ofNat']
      exact ⟨by omega, by omega, nofun⟩
    · split
      · simp only [List.forall_mem_cons, UInt8.toNat_ofNat']
        exact ⟨by omega, by omega, by omega, nofun⟩
      · simp only [List.forall_mem_cons, UInt8.toNat_ofNat']
        exact ⟨by omega, by omega, by omega, by omega, nofun⟩

/-- No character but the zero has a zero byte. -/
theorem eq_zero_of_mem_utf8EncodeChar {c : Char} (h : 0 ∈ String.utf8EncodeChar c) :
    c = '\x00' := by
  rcases utf8EncodeChar_cases c with ⟨hsmall, hbyte⟩ | hlarge
  · rw [hbyte, List.mem_singleton] at h
    have hvalue : c.toNat % 256 = 0 := by simpa using (congrArg UInt8.toNat h).symm
    have hzero : c.toNat = '\x00'.toNat := by
      change c.toNat = 0
      omega
    exact Char.toNat_inj.1 hzero
  · exact absurd (hlarge 0 h) (by decide)

theorem zero_mem_toUTF8 {s : String} (h : (0 : UInt8) ∈ s.toUTF8.toList) : '\x00' ∈ s.toList := by
  rw [toList_toUTF8] at h
  obtain ⟨c, hc, hzero⟩ := List.mem_flatMap.1 h
  exact eq_zero_of_mem_utf8EncodeChar hzero ▸ hc

end Mailroom.Text
