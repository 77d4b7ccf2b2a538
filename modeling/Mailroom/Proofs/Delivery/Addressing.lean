import Mathlib.Data.List.DropRight
import Mathlib.Data.List.Flatten
import Mathlib.Data.List.TakeWhile
import Mailroom.Mta.Exchange
import Mailroom.Proofs.Json.Records
import Mailroom.Proofs.Json.Rereading
import Mailroom.Proofs.Text.Percent

/-!
Which message a server is asked about.  The identifier of a message is whatever text its server gave
it, and stands as it is in the address of the request for its status.  Main statement: the target
of the request names the message exactly if its identifier is plain, without marks that an address
gives a meaning of its own; plain identifiers are never confused.
-/

namespace Mailroom

namespace Target

open Text (IsLiteral percentBytes)

variable {cs : List Char} {done : List (List Char)}

/-- What lies between a text and itself is the text. -/
theorem eq_of_sublist {α : Type} {part between whole : List α} (hpart : part.Sublist between)
    (hbetween : between.Sublist whole) (h : part = whole) : between = whole :=
  hbetween.antisymm (h ▸ hpart)

/-- A part that is cut at a mark is still the whole only if it was, and the mark is not in it. -/
theorem takeWhile_eq_iff {part whole : List Char} {mark : Char} (hpart : part.Sublist whole) :
    (part.takeWhile fun c => c != mark) = whole ↔ part = whole ∧ mark ∉ whole := by
  have hfree : (∀ c ∈ whole, (c != mark) = true) ↔ mark ∉ whole := by
    simp only [bne_iff_ne]
    exact ⟨fun h hmark => h mark hmark rfl, fun h c hc hmark => h (hmark ▸ hc)⟩
  rw [← hfree, ← List.takeWhile_eq_self_iff]
  constructor
  · intro h
    obtain rfl := eq_of_sublist (List.takeWhile_sublist _) hpart h
    exact ⟨rfl, h⟩
  · rintro ⟨rfl, h⟩
    exact h

/-- A text without the controls and spaces at its end. -/
def stripped (cs : List Char) : List Char := cs.rdropWhile fun c => c.toNat ≤ 0x20

theorem stripped_sublist (cs : List Char) : (stripped cs).Sublist cs := by
  have hfront := List.rdropWhile_prefix (fun c => c.toNat ≤ 0x20) cs
  exact hfront.sublist

theorem stripped_eq_self_iff :
    stripped cs = cs ↔ ∀ hcs : cs ≠ [], 0x20 < (cs.getLast hcs).toNat := by
  rw [stripped, List.rdropWhile_eq_self_iff]
  simp only [decide_eq_true_eq, Nat.not_le]

theorem stripped_append {front : List Char} (hfront : ∀ c ∈ front, 0x20 < c.toNat)
    (cs : List Char) : stripped (front ++ cs) = front ++ stripped cs := by
  induction cs using List.reverseRecOn with
  | nil =>
      rw [List.append_nil, stripped_eq_self_iff.2 fun hne => hfront _ (List.getLast_mem hne)]
      exact (List.append_nil front).symm
  | append_singleton cs c ih =>
      rw [← List.append_assoc, stripped, stripped, List.rdropWhile_concat, List.rdropWhile_concat]
      split
      · exact ih
      · exact List.append_assoc _ _ _

theorem tidied_eq (cs : List Char) :
    tidied cs = (stripped cs).filter fun c => c != '\t' && c != '\n' && c != '\r' := rfl

theorem tidied_sublist (cs : List Char) : (tidied cs).Sublist cs :=
  List.filter_sublist.trans (stripped_sublist cs)

/-- A text without tabs, breaks, and controls or spaces at its end is left as it is. -/
theorem tidied_eq_self_iff : tidied cs = cs ↔
    (∀ c ∈ cs, c ∉ ['\t', '\n', '\r']) ∧ ∀ hcs : cs ≠ [], 0x20 < (cs.getLast hcs).toNat := by
  have hkept : (∀ c ∈ cs, (c != '\t' && c != '\n' && c != '\r') = true) ↔
      ∀ c ∈ cs, c ∉ ['\t', '\n', '\r'] := by
    simp [and_assoc]
  rw [← stripped_eq_self_iff, ← hkept, ← List.filter_eq_self]
  constructor
  · intro h
    have hstripped : stripped cs = cs := eq_of_sublist List.filter_sublist (stripped_sublist cs) h
    rw [tidied_eq, hstripped] at h
    exact ⟨h, hstripped⟩
  · rintro ⟨hfilter, hstripped⟩
    rw [tidied_eq, hstripped, hfilter]

/-- Nothing of a beginning without controls and spaces is lost. -/
theorem tidied_append {front : List Char} (hfront : ∀ c ∈ front, 0x20 < c.toNat) (cs : List Char) :
    tidied (front ++ cs) = front ++ tidied cs := by
  have hkept : ∀ c ∈ front, (c != '\t' && c != '\n' && c != '\r') = true := by
    intro c hc
    have hrange := hfront c hc
    simp only [Bool.and_eq_true, bne_iff_ne]
    refine ⟨⟨?_, ?_⟩, ?_⟩
    all_goals
      rintro rfl
      revert hrange
      decide
  rw [tidied_eq, stripped_append hfront, List.filter_append, List.filter_eq_self.2 hkept, tidied_eq]

def visible (cs : List Char) : List Char := (tidied cs).takeWhile fun c => c != '#'

def pathOf (cs : List Char) : List Char := (visible cs).takeWhile fun c => c != '?'

/-- The query of an address, as it stands in the target. -/
def queryOf (cs : List Char) : List Char :=
  match (visible cs).dropWhile fun c => c != '?' with
  | [] => []
  | _ :: query => '?' :: encoded foreignToQuery query

theorem visible_sublist (cs : List Char) : (visible cs).Sublist cs :=
  (List.takeWhile_sublist _).trans (tidied_sublist cs)

theorem pathOf_sublist (cs : List Char) : (pathOf cs).Sublist cs :=
  (List.takeWhile_sublist _).trans (visible_sublist cs)

theorem visible_eq_self_iff : visible cs = cs ↔ tidied cs = cs ∧ '#' ∉ cs :=
  takeWhile_eq_iff (tidied_sublist cs)

/-- What is path and nothing else is left as it is, and has no marks that end a path. -/
theorem pathOf_eq_self_iff : pathOf cs = cs ↔ visible cs = cs ∧ '?' ∉ cs :=
  takeWhile_eq_iff (visible_sublist cs)

theorem queryOf_cases (cs : List Char) : queryOf cs = [] ∨ '?' ∈ queryOf cs := by
  rw [queryOf]
  split
  · exact .inl rfl
  · exact .inr List.mem_cons_self

/-- Where a text goes on from a beginning that is all path. -/
theorem ofSuffix?_append {front : List Char} (hfront : ∀ c ∈ front, 0x20 < c.toNat ∧ c ∉ ['#', '?'])
    (cs : List Char) :
    ofSuffix? (String.ofList ('/' :: front ++ cs)) = some (String.ofList
      ('/' :: ['/'].intercalate (resolve (segments (front ++ pathOf cs)) []) ++ queryOf cs)) := by
  have hslash : ∀ c ∈ '/' :: front, 0x20 < c.toNat ∧ c ∉ ['#', '?'] :=
    List.forall_mem_cons.2 ⟨by decide, hfront⟩
  have hfree : ∀ mark ∈ ['#', '?'], ∀ c ∈ '/' :: front, (c != mark) = true := by
    intro mark hmark c hc
    exact bne_iff_ne.2 fun h => (hslash c hc).2 (h ▸ hmark)
  have htidied := tidied_append (fun c hc => (hslash c hc).1) cs
  have hvisible : ('/' :: front ++ tidied cs).takeWhile (fun c => c != '#') =
      '/' :: front ++ visible cs := List.takeWhile_append_of_pos (hfree '#' (by decide))
  have hpath : ('/' :: front ++ visible cs).takeWhile (fun c => c != '?') =
      '/' :: front ++ pathOf cs := List.takeWhile_append_of_pos (hfree '?' (by decide))
  have hquery : ('/' :: front ++ visible cs).dropWhile (fun c => c != '?') =
      (visible cs).dropWhile (fun c => c != '?') :=
    List.dropWhile_append_of_pos (hfree '?' (by decide))
  rw [ofSuffix?, String.toList_ofList, htidied]
  simp only [hvisible, hpath, hquery, queryOf]
  rfl

/-- A space at the end of an address is lost. -/
theorem ofSuffix?_space (s : String) : ofSuffix? (s ++ " ") = ofSuffix? s := by
  have hsame : tidied (s ++ " ").toList = tidied s.toList := by
    have hlist : (s ++ " ").toList = s.toList ++ [' '] := String.toList_append
    rw [tidied_eq, tidied_eq, hlist, stripped, List.rdropWhile_concat_pos _ _ _ (by decide)]
    rfl
  rw [ofSuffix?, hsame]
  rfl

theorem segments_slash {c : Char} (hc : c = '/' ∨ c = '\\') (cs : List Char) :
    segments (c :: cs) = [] :: segments cs := by
  rw [segments, if_pos hc]

theorem segments_other {c : Char} (hc : ¬(c = '/' ∨ c = '\\')) {first : List Char}
    {rest : List (List Char)} (hcs : segments cs = first :: rest) :
    segments (c :: cs) = (c :: first) :: rest := by
  rw [segments, if_neg hc, hcs]

/-- The last of the segments is a part of the text, and has no slashes. -/
theorem segments_eq (cs : List Char) : ∃ before last, segments cs = before ++ [last] ∧
    last.Sublist cs ∧ ∀ c ∈ last, ¬(c = '/' ∨ c = '\\') := by
  induction cs with
  | nil => exact ⟨[], [], rfl, .slnil, nofun⟩
  | cons c cs ih =>
      obtain ⟨before, last, hcs, hlast, hfree⟩ := ih
      by_cases hc : c = '/' ∨ c = '\\'
      · exact ⟨[] :: before, last, by rw [segments_slash hc, hcs]; rfl, hlast.cons c, hfree⟩
      · cases before with
        | nil =>
            exact ⟨[], c :: last, segments_other hc hcs, hlast.cons_cons c,
              List.forall_mem_cons.2 ⟨hc, hfree⟩⟩
        | cons first before =>
            exact ⟨(c :: first) :: before, last, segments_other hc hcs, hlast.cons c, hfree⟩

theorem segments_append {segment : List Char} (h : ∀ c ∈ segment, ¬(c = '/' ∨ c = '\\'))
    (cs : List Char) : segments (segment ++ '/' :: cs) = segment :: segments cs := by
  induction segment with
  | nil => exact segments_slash (.inl rfl) cs
  | cons c segment ih =>
      obtain ⟨hc, hrest⟩ := List.forall_mem_cons.1 h
      exact segments_other hc (ih hrest)

theorem segments_eq_singleton (h : ∀ c ∈ cs, ¬(c = '/' ∨ c = '\\')) : segments cs = [cs] := by
  induction cs with
  | nil => rfl
  | cons c cs ih =>
      obtain ⟨hc, hrest⟩ := List.forall_mem_cons.1 h
      exact segments_other hc (ih hrest)

theorem resolve_enter {segment : List Char} (h : move segment = .enter) {rest : List (List Char)}
    (hrest : rest ≠ []) :
    resolve (segment :: rest) done = resolve rest (encoded foreignToPath segment :: done) := by
  cases rest with
  | nil => exact absurd rfl hrest
  | cons next rest => rw [resolve, h]; nofun

/-- A resolved path ends in the last segment, or in an empty one if that was a move. -/
theorem resolve_last (before : List (List Char)) (last : List Char) (done : List (List Char)) :
    ∃ segments, resolve (before ++ [last]) done = segments ++ [[]] ∨
      resolve (before ++ [last]) done = segments ++ [encoded foreignToPath last] ∧
        move last = .enter := by
  induction before generalizing done with
  | nil =>
      cases hmove : move last with
      | stay => exact ⟨done.reverse, .inl (by simp [resolve, hmove])⟩
      | back => exact ⟨(goBack done).reverse, .inl (by simp [resolve, hmove])⟩
      | enter => exact ⟨done.reverse, .inr ⟨by simp [resolve, hmove], rfl⟩⟩
  | cons segment before ih =>
      have hrest : before ++ [last] ≠ [] := by simp
      rw [List.cons_append, resolve]
      · split
        · exact ih _
        · exact ih _
        · exact ih _
      · exact hrest

theorem dotted_of_isLiteral (h : IsLiteral cs) : dotted cs = cs := by
  fun_induction dotted cs with
  | case1 rest _ => exact absurd ⟨'2', 'e', rest, rfl, rfl⟩ ((Text.isLiteral_cons.1 h).1 rfl)
  | case2 rest _ => exact absurd ⟨'2', 'E', rest, rfl, rfl⟩ ((Text.isLiteral_cons.1 h).1 rfl)
  | case3 c rest _ _ ih => rw [ih (Text.isLiteral_cons.1 h).2]
  | case4 => rfl

theorem ne_dots_of_enter (h : move cs = .enter) : cs ≠ ['.'] ∧ cs ≠ ['.', '.'] := by
  constructor
  · rintro rfl
    cases h
  · rintro rfl
    cases h

theorem enter_of_isLiteral (h : IsLiteral cs) (hdots : cs ≠ ['.'] ∧ cs ≠ ['.', '.']) :
    move cs = .enter := by
  rw [move, dotted_of_isLiteral h, if_neg hdots.1, if_neg hdots.2]

/-- A path ends in its last segment. -/
theorem intercalate_last (before : List (List Char)) (last : List Char) :
    ∃ front, '/' :: ['/'].intercalate (before ++ [last]) = front ++ '/' :: last := by
  induction before with
  | nil => exact ⟨[], by simp⟩
  | cons segment before ih =>
      obtain ⟨front, hfront⟩ := ih
      have hjoined : ['/'].intercalate (segment :: (before ++ [last])) =
          segment ++ '/' :: ['/'].intercalate (before ++ [last]) := by
        cases before <;> simp [List.intercalate]
      refine ⟨'/' :: segment ++ front, ?_⟩
      rw [List.cons_append, hjoined, hfront, List.append_assoc, List.cons_append]

/-- A target is that of a message: the path of messages, and one segment that stands for its
identifier. -/
def Names (target id : String) : Prop :=
  ∃ segment, target = "/api/v1/messages/" ++ segment ∧ '/' ∉ segment.toList ∧
    '?' ∉ segment.toList ∧ percentBytes segment.toList = id.toUTF8.toList

/-- A text has no marks with a meaning of their own in an address. -/
structure IsPlain (cs : List Char) : Prop where
  marks : ∀ c ∈ cs, c ∉ ['/', '\\', '?', '#', '\t', '\n', '\r']
  ending : ∀ hcs : cs ≠ [], 0x20 < (cs.getLast hcs).toNat
  dots : cs ≠ ['.'] ∧ cs ≠ ['.', '.']
  literal : IsLiteral cs

/-- Where a message is found: its identifier comes behind the path of messages. -/
theorem ofSuffix?_messages (id : String) : ofSuffix? ("/api/v1/messages/" ++ id) =
    some (String.ofList ('/' :: ['/'].intercalate (resolve (segments (pathOf id.toList))
      ["messages".toList, "v1".toList, "api".toList]) ++ queryOf id.toList)) := by
  have hsuffix : "/api/v1/messages/" ++ id =
      String.ofList ('/' :: "api/v1/messages/".toList ++ id.toList) := by
    have hlist : ("/api/v1/messages/" ++ id).toList = '/' :: "api/v1/messages/".toList ++ id.toList :=
      String.toList_append
    rw [← hlist, String.ofList_toList]
  have hsegments : segments ("api/v1/messages/".toList ++ pathOf id.toList) =
      "api".toList :: "v1".toList :: "messages".toList :: segments (pathOf id.toList) := by
    have happart : "api/v1/messages/".toList ++ pathOf id.toList = "api".toList ++
        '/' :: ("v1".toList ++ '/' :: ("messages".toList ++ '/' :: pathOf id.toList)) := rfl
    rw [happart, segments_append (by simp), segments_append (by simp), segments_append (by simp)]
  obtain ⟨before, last, hlast, -⟩ := segments_eq (pathOf id.toList)
  have hrest : segments (pathOf id.toList) ≠ [] := by simp [hlast]
  rw [hsuffix, ofSuffix?_append (by simp), hsegments, resolve_enter rfl (List.cons_ne_nil _ _),
    resolve_enter rfl (List.cons_ne_nil _ _), resolve_enter rfl hrest]
  rfl

theorem toList_messages (segment : String) : ("/api/v1/messages/" ++ segment).toList =
    "/api/v1/messages".toList ++ '/' :: segment.toList := by
  rw [String.toList_append]
  rfl

/-- A part that has all the bytes of a text is the text. -/
theorem eq_of_length_bytes {part whole : List Char} (hpart : part.Sublist whole)
    (h : (whole.flatMap String.utf8EncodeChar).length ≤
      (part.flatMap String.utf8EncodeChar).length) : part = whole := by
  have hbytes := (hpart.flatMap String.utf8EncodeChar).eq_of_length_le h
  apply String.ofList_inj.1
  apply Text.toUTF8_injective
  rw [Text.toList_toUTF8, Text.toList_toUTF8, String.toList_ofList, String.toList_ofList, hbytes]

/-- The segment of a message in a target is the last of the segments in the address, or empty. -/
theorem segment_of_names {id segment : String} {before : List (List Char)} {last : List Char}
    (htarget : ofSuffix? ("/api/v1/messages/" ++ id) = some ("/api/v1/messages/" ++ segment))
    (hsegments : segments (pathOf id.toList) = before ++ [last]) (hlast : '/' ∉ last)
    (hslash : '/' ∉ segment.toList) (hquery : '?' ∉ segment.toList) :
    segment.toList = [] ∨ segment.toList = encoded foreignToPath last ∧ move last = .enter := by
  rw [ofSuffix?_messages, hsegments] at htarget
  have hwhole := congrArg String.toList (Option.some.inj htarget)
  rw [String.toList_ofList, toList_messages] at hwhole
  have hnone : queryOf id.toList = [] := by
    rcases queryOf_cases id.toList with hnone | hsome
    · exact hnone
    · have hmem := hwhole ▸ List.mem_append_right _ hsome
      rcases List.mem_append.1 hmem with hfront | hbehind
      · exact absurd hfront (by decide)
      · rcases List.mem_cons.1 hbehind with hmark | hmem
        · exact absurd hmark (by decide)
        · exact absurd hmem hquery
  rw [hnone, List.append_nil] at hwhole
  have hbehind : ∀ parts end', '/' ∉ end' →
      resolve (before ++ [last]) ["messages".toList, "v1".toList, "api".toList] = parts ++ [end'] →
      segment.toList = end' := by
    intro parts end' hend hresolved
    obtain ⟨front, hfront⟩ := intercalate_last parts end'
    rw [hresolved, hfront] at hwhole
    exact (Text.append_cons_inj_last hend hslash hwhole).2.symm
  obtain ⟨parts, hend | ⟨hend, hmove⟩⟩ := resolve_last before last
    ["messages".toList, "v1".toList, "api".toList]
  · exact .inl (hbehind parts [] List.not_mem_nil hend)
  · exact .inr ⟨hbehind parts _ (not_mem_encoded (by decide) hlast) hend, hmove⟩

theorem isPlain_of_names {id target : String} (hid : id ≠ "")
    (htarget : ofSuffix? ("/api/v1/messages/" ++ id) = some target) (h : Names target id) :
    IsPlain id.toList := by
  obtain ⟨segment, rfl, hslash, hquery, hbytes⟩ := h
  obtain ⟨before, last, hsegments, hpart, hfree⟩ := segments_eq (pathOf id.toList)
  have hlast : '/' ∉ last := fun hmem => hfree '/' hmem (.inl rfl)
  rcases segment_of_names htarget hsegments hlast hslash hquery with hempty | ⟨hsegment, hmove⟩
  · have hnone : percentBytes [] = "".toUTF8.toList := by
      rw [percentBytes, Text.toList_toUTF8]
      rfl
    rw [hempty, hnone] at hbytes
    exact absurd (Text.toUTF8_injective hbytes.symm) hid
  · rw [hsegment, percentBytes_encoded, Text.toList_toUTF8] at hbytes
    obtain ⟨hle, hliteral⟩ := Text.length_percentBytes last
    rw [hbytes] at hle hliteral
    -- Every stage only leaves out, and decoding never adds: all the bytes are there only if
    -- nothing was left out at any of them.
    obtain rfl := eq_of_length_bytes (hpart.trans (pathOf_sublist _)) hle
    have hpath : pathOf id.toList = id.toList := (pathOf_sublist _).antisymm hpart
    obtain ⟨hvisible, hmark⟩ := pathOf_eq_self_iff.1 hpath
    obtain ⟨htidied, hfragment⟩ := visible_eq_self_iff.1 hvisible
    obtain ⟨hblanks, hending⟩ := tidied_eq_self_iff.1 htidied
    refine ⟨?_, hending, ne_dots_of_enter hmove, hliteral (Nat.le_refl _)⟩
    intro c hc
    have hslashes := hfree c hc
    have hbreaks := hblanks c hc
    have hne : c ≠ '?' ∧ c ≠ '#' := ⟨fun h => hmark (h ▸ hc), fun h => hfragment (h ▸ hc)⟩
    simp_all

theorem queryOf_eq_nil (h : pathOf cs = cs) : queryOf cs = [] := by
  obtain ⟨hvisible, hmark⟩ := pathOf_eq_self_iff.1 h
  have hnone : cs.dropWhile (fun c => c != '?') = [] := by
    rw [List.dropWhile_eq_nil_iff]
    exact fun c hc => bne_iff_ne.2 fun heq => hmark (heq ▸ hc)
  rw [queryOf, hvisible, hnone]

theorem names_of_isPlain {id target : String}
    (htarget : ofSuffix? ("/api/v1/messages/" ++ id) = some target) (h : IsPlain id.toList) :
    Names target id := by
  have hmark : ∀ mark ∈ ['/', '\\', '?', '#', '\t', '\n', '\r'], mark ∉ id.toList :=
    fun mark hmark hmem => h.marks mark hmem hmark
  have hblanks : ∀ c ∈ id.toList, c ∉ ['\t', '\n', '\r'] := fun c hc hblank =>
    h.marks c hc (List.mem_append_right ['/', '\\', '?', '#'] hblank)
  have htidied := tidied_eq_self_iff.2 ⟨hblanks, h.ending⟩
  have hvisible := visible_eq_self_iff.2 ⟨htidied, hmark '#' (by decide)⟩
  have hpath := pathOf_eq_self_iff.2 ⟨hvisible, hmark '?' (by decide)⟩
  have hfree : ∀ c ∈ id.toList, ¬(c = '/' ∨ c = '\\') := by
    rintro c hc (rfl | rfl)
    · exact hmark '/' (by decide) hc
    · exact hmark '\\' (by decide) hc
  have hresolved : resolve [id.toList] ["messages".toList, "v1".toList, "api".toList] =
      ["api".toList, "v1".toList, "messages".toList, encoded foreignToPath id.toList] := by
    rw [resolve, enter_of_isLiteral h.literal h.dots]
    rfl
  rw [ofSuffix?_messages, queryOf_eq_nil hpath, hpath, segments_eq_singleton hfree,
    hresolved] at htarget
  obtain ⟨segment, hsegment⟩ : ∃ segment : String,
      segment.toList = encoded foreignToPath id.toList := ⟨_, String.toList_ofList⟩
  refine ⟨segment, ?_, ?_, ?_, ?_⟩
  · rw [← Option.some.inj htarget, List.append_nil]
    apply String.toList_inj.1
    refine String.toList_ofList.trans ?_
    rw [toList_messages, hsegment, List.intercalate_cons_cons, List.intercalate_cons_cons,
      List.intercalate_cons_cons, List.intercalate_singleton]
    rfl
  · rw [hsegment]
    exact not_mem_encoded (by decide) (hmark '/' (by decide))
  · rw [hsegment]
    exact not_mem_encoded (by decide) (hmark '?' (by decide))
  · rw [hsegment, percentBytes_encoded, Text.percentBytes_of_isLiteral h.literal,
      Text.toList_toUTF8]

/-- No target is that of two messages. -/
theorem Names.eq {target id id' : String} (h : Names target id) (h' : Names target id') :
    id = id' := by
  obtain ⟨segment, rfl, -, -, hbytes⟩ := h
  obtain ⟨segment', hsame, -, -, hbytes'⟩ := h'
  obtain rfl : segment = segment' := String.append_right_inj _ |>.1 hsame
  exact Text.toUTF8_injective (hbytes.symm.trans hbytes')

end Target

/-- Nothing but slashes follows the host in the address of a server. -/
def MtaAccess.IsRoot (access : MtaAccess) : Prop := ∀ c ∈ access.suffix.toList, c = '/'

namespace MtaCall

open Json (Fields IsExact)
open Target (IsPlain Names)

variable {access : MtaAccess} {id : String}

/-- What a request shows of the key of a server; none if the key may not stand in a header. -/
def authorization? : Option String → Option (Option String)
  | none => some none
  | some key => if isHeaderValue key then some (some ("Bearer " ++ key)) else none

theorem request?_eq (c : MtaCall) (access : MtaAccess) : c.request? access =
    (Target.ofSuffix? (withoutSlashes access.suffix ++ c.path)).bind fun target =>
      (authorization? access.apiKey).map fun shown => ⟨c.method, target, shown, c.body⟩ := by
  rw [request?]
  refine bind_congr fun target => ?_
  cases access.apiKey with
  | none => rfl
  | some key =>
      simp only [authorization?]
      split <;> rfl

theorem isSome_authorization? (key : Option String) :
    (authorization? key).isSome ↔ ∀ k ∈ key, isHeaderValue k = true := by
  cases key with
  | none => simp [authorization?]
  | some key => cases h : isHeaderValue key <;> simp [authorization?, h]

theorem path_status (id : String) : (status id).path = "/api/v1/messages/" ++ id := rfl

theorem withoutSlashes_of_isRoot (h : access.IsRoot) : withoutSlashes access.suffix = "" := by
  have hall : ∀ c ∈ access.suffix.toList.reverse, (c == '/') = true :=
    fun c hc => beq_iff_eq.2 (h c (List.mem_reverse.1 hc))
  rw [withoutSlashes, List.dropWhile_eq_nil_iff.2 hall]
  rfl

/-- There is a target for each identifier, and the key decides whether a request is made. -/
theorem request?_status (h : access.IsRoot) (id : String) :
    ∃ target, Target.ofSuffix? ("/api/v1/messages/" ++ id) = some target ∧
      (status id).request? access =
        (authorization? access.apiKey).map fun shown => ⟨"GET", target, shown, none⟩ := by
  refine ⟨_, Target.ofSuffix?_messages id, ?_⟩
  rw [request?_eq, withoutSlashes_of_isRoot h, String.empty_append, path_status,
    Target.ofSuffix?_messages]
  rfl

/-- A server may give a message any identifier but the empty one. -/
theorem exists_interpret_submit (m : Message) (hid : id ≠ "") :
    ∃ response, (submit m).interpret response = .ok id := by
  have hexact : (Json.obj [("id", .str id)]).IsExact Json.depthLimit := by
    suffices hmembers : ∀ member ∈ [("id", Json.str id)], member.2.IsExact 126 from .obj hmembers
    exact List.forall_mem_singleton.2 (.str id)
  have hread : (Fields.required "id" Json.Decoder.text).decoder
      (Json.read (Json.obj [("id", .str id)]).render) = .ok id := by
    rw [Json.read_render hexact]
    apply (Fields.decoder_obj (Fields.isSound_field _ _ _ _) (by simp)).2
    have hmember : Json.member? "id" [("id", Json.Draft.str id)] = some (.str id) := rfl
    exact Fields.ofMembers_field hmember
  refine ⟨⟨200, (Json.obj [("id", .str id)]).render⟩, ?_⟩
  have hsuccess : ¬(200 < 200 ∨ 300 ≤ 200) := by decide
  rw [interpret, if_neg hsuccess]
  simp only [decoded, hread]
  change (if id = "" then _ else _) = _
  rw [if_neg hid]
  rfl

/-- A space at the end of an identifier is lost. -/
theorem request?_status_space (access : MtaAccess) (id : String) :
    (status (id ++ " ")).request? access = (status id).request? access := by
  have hpath : withoutSlashes access.suffix ++ (status (id ++ " ")).path =
      withoutSlashes access.suffix ++ (status id).path ++ " " := by
    rw [path_status, path_status, String.append_assoc, String.append_assoc]
  rw [request?_eq, request?_eq, hpath, Target.ofSuffix?_space]
  rfl

/-- A request for the status of a message is made if the key may be shown, whatever the identifier,
and any identifier but the empty one may be met.  Its target names the message exactly if the
identifier is plain.  Plain identifiers have different targets, but no identifier, plain or not, has
a target for itself alone. -/
theorem status_names_iff_isPlain (hroot : access.IsRoot) (hid : id ≠ "") :
    (∀ m, ∃ response, (submit m).interpret response = .ok id) ∧
    ((∃ request, (status id).request? access = some request) ↔
      ∀ key ∈ access.apiKey, isHeaderValue key = true) ∧
    (∃ other, other ≠ id ∧ other ≠ "" ∧
      (status other).request? access = (status id).request? access) ∧
    ∀ request, (status id).request? access = some request →
      request.method = "GET" ∧ (Names request.target id ↔ IsPlain id.toList) ∧
      ∀ other request', (status other).request? access = some request' → IsPlain id.toList →
        IsPlain other.toList → other ≠ id → request'.target ≠ request.target := by
  obtain ⟨target, htarget, hrequest⟩ := request?_status hroot id
  refine ⟨fun m => exists_interpret_submit m hid, ?_, ?_, ?_⟩
  · rw [← Option.isSome_iff_exists, hrequest, Option.isSome_map, isSome_authorization?]
  · have hlonger : (id ++ " ").length = id.length + 1 := String.length_append id " "
    refine ⟨id ++ " ", ?_, ?_, request?_status_space access id⟩
    · intro hsame
      rw [hsame] at hlonger
      omega
    · intro hempty
      rw [hempty] at hlonger
      cases hlonger
  · intro request hsome
    obtain ⟨shown, -, rfl⟩ := Option.map_eq_some_iff.1 (hrequest ▸ hsome)
    have hiff : Names target id ↔ IsPlain id.toList :=
      ⟨Target.isPlain_of_names hid htarget, Target.names_of_isPlain htarget⟩
    refine ⟨rfl, hiff, ?_⟩
    intro other request' hother hplain hplain' hne hsame
    obtain ⟨target', htarget', hrequest'⟩ := request?_status hroot other
    obtain ⟨shown', -, rfl⟩ := Option.map_eq_some_iff.1 (hrequest' ▸ hother)
    obtain rfl : target' = target := hsame
    exact hne ((Target.names_of_isPlain htarget' hplain').eq (hiff.2 hplain))

/-- An identifier with a space is plain: its target names it, and no other identifier of the kind. -/
theorem asked_about_itself :
    MtaAccess.IsRoot ⟨"/", some "key"⟩ ∧ "m 1" ≠ "" ∧ IsPlain "m 1".toList ∧
    ∃ request, (status "m 1").request? ⟨"/", some "key"⟩ = some request ∧
      Names request.target "m 1" ∧
      ∀ other request', (status other).request? ⟨"/", some "key"⟩ = some request' →
        IsPlain other.toList → other ≠ "m 1" → request'.target ≠ request.target := by
  have hroot : MtaAccess.IsRoot ⟨"/", some "key"⟩ := by
    intro c hc
    exact List.mem_singleton.1 hc
  have hplain : IsPlain "m 1".toList :=
    ⟨by simp, by decide, by decide, Text.isLiteral_of_not_mem (by decide)⟩
  have hid : "m 1" ≠ "" := by decide
  obtain ⟨-, hmade, -, htold⟩ := status_names_iff_isPlain hroot hid
  obtain ⟨request, hrequest⟩ := hmade.2 (by decide)
  obtain ⟨-, hnames, hapart⟩ := htold request hrequest
  exact ⟨hroot, hid, hplain, request, hrequest, hnames.2 hplain,
    fun other request' hother hplain' => hapart other request' hother hplain hplain'⟩

/-- What a fragment mark begins does not reach the server, which is asked about another message. -/
theorem may_ask_about_another :
    MtaAccess.IsRoot ⟨"", none⟩ ∧
    (∃ response, (submit default).interpret response = .ok "m-1") ∧
    (∃ response, (submit default).interpret response = .ok "m-1#2") ∧
    (status "m-1").request? ⟨"", none⟩ = some ⟨"GET", "/api/v1/messages/m-1", none, none⟩ ∧
    (status "m-1#2").request? ⟨"", none⟩ = some ⟨"GET", "/api/v1/messages/m-1", none, none⟩ ∧
    Names "/api/v1/messages/m-1" "m-1" ∧ ¬Names "/api/v1/messages/m-1" "m-1#2" := by
  have hroot : MtaAccess.IsRoot ⟨"", none⟩ := by
    intro c hc
    cases hc
  have hfirst : Target.ofSuffix? ("/api/v1/messages/" ++ "m-1") = some "/api/v1/messages/m-1" := by
    decide +kernel
  have hsecond :
      Target.ofSuffix? ("/api/v1/messages/" ++ "m-1#2") = some "/api/v1/messages/m-1" := by
    decide +kernel
  have hrequest {id target : String}
      (htarget : Target.ofSuffix? ("/api/v1/messages/" ++ id) = some target) :
      (status id).request? ⟨"", none⟩ = some ⟨"GET", target, none, none⟩ := by
    obtain ⟨target', htarget', hrequest⟩ := request?_status hroot id
    obtain rfl : target = target' := Option.some.inj (htarget.symm.trans htarget')
    exact hrequest
  have hnames : Names "/api/v1/messages/m-1" "m-1" :=
    ⟨"m-1", rfl, by decide, by decide, by decide +kernel⟩
  refine ⟨hroot, exists_interpret_submit default (by decide),
    exists_interpret_submit default (by decide), hrequest hfirst, hrequest hsecond, hnames, ?_⟩
  intro hother
  exact absurd (hnames.eq hother) (by decide)

end MtaCall

end Mailroom
