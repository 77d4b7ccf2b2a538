import Mailroom.Domain.Patch
import Mailroom.Json.Member
import Mailroom.Proofs.Json.Records
import Mailroom.Proofs.Json.Rereading

/-!
Changes to the settings of a domain, as they are written and read, made one after the other.  A
change that goes through its text comes out as it was, and two changes amount to a single one.
Main statement: what is read from the text of a change is that change and nothing else, and what
changes make of a domain is given field by field.
-/

namespace Mailroom

namespace DomainPatch

open Json (Decoder Fields)

variable {p q : DomainPatch}

/-- A whole number of 32 bits. -/
def IsShort (n : Int) : Prop := -2 ^ 31 ≤ n ∧ n < 2 ^ 31

/-- The limits in a change are numbers of 32 bits. -/
structure Fits (p : DomainPatch) : Prop where
  perMinute : ∀ n ∈ p.perMinute, IsShort n
  perHour : ∀ n ∈ p.perHour, IsShort n

/-- The members that a change is written with. -/
def written (p : DomainPatch) : List (String × Json) := p.toJson.members

theorem toJson_eq (p : DomainPatch) : p.toJson = .obj p.written := rfl

theorem member?_nullableMember (name other : String) (value : Option (Option String)) :
    Json.member? name (nullableMember other value) =
      if other = name then value.map Json.ofOption else none := by
  cases value <;> simp [nullableMember, Json.member?]

/-- The names come in the order of the fields, and those that need not be written may be missing. -/
theorem names_written (p : DomainPatch) : (p.written.map Prod.fst).Sublist
    ["delivery_mode", "redirect_to", "bcc_to", "dkim_selector", "dkim_enabled",
      "rate_limit_per_minute", "rate_limit_per_hour"] := by
  have hnullable : ∀ (name : String) value,
      ((nullableMember name value).map Prod.fst).Sublist [name] := by
    intro name value
    cases value <;> simp [nullableMember]
  simp only [written, toJson, Json.members, List.map_append]
  exact (((List.Sublist.refl ["delivery_mode"]).append (hnullable "redirect_to" _)).append
    (hnullable "bcc_to" _)).append (hnullable "dkim_selector" _) |>.append (List.Sublist.refl _)

theorem nodup_written (p : DomainPatch) : (p.written.map Prod.fst).Nodup :=
  (names_written p).nodup (by decide)

/-- What is written of each field. -/
theorem member?_written (p : DomainPatch) :
    Json.member? "delivery_mode" p.written =
        some ((p.mode.map fun m => .str (Vocabulary.word m)).getD .null) ∧
      Json.member? "redirect_to" p.written = p.redirectTo.map Json.ofOption ∧
      Json.member? "bcc_to" p.written = p.bccTo.map Json.ofOption ∧
      Json.member? "dkim_selector" p.written = p.dkimSelector.map Json.ofOption ∧
      Json.member? "dkim_enabled" p.written = some ((p.dkimEnabled.map .bool).getD .null) ∧
      Json.member? "rate_limit_per_minute" p.written =
        some ((p.perMinute.map .int).getD .null) ∧
      Json.member? "rate_limit_per_hour" p.written = some ((p.perHour.map .int).getD .null) := by
  have hmode : Json.ofOption (p.mode.map Vocabulary.word) =
      (p.mode.map fun m => .str (Vocabulary.word m)).getD .null := by
    cases p.mode <;> rfl
  simp [written, toJson, Json.members, Json.member?_append, Json.member?_cons,
    member?_nullableMember, hmode]

theorem isExact_ofOption (depth : Nat) (value : Option String) :
    (Json.ofOption value).IsExact depth := by
  cases value with
  | none => exact .null
  | some s => exact .str s

theorem isExact_nullableMember {depth : Nat} {name : String} {value : Option (Option String)}
    {m : String × Json} (hm : m ∈ nullableMember name value) : m.2.IsExact depth := by
  cases value with
  | none => cases hm
  | some value =>
      cases List.mem_singleton.1 hm
      exact isExact_ofOption depth value

theorem isExact_getD {α : Type} {depth : Nat} {write : α → Json} {value : Option α}
    (h : ∀ a ∈ value, (write a).IsExact depth) : ((value.map write).getD .null).IsExact depth := by
  cases value with
  | none => exact .null
  | some a => exact h a rfl

theorem IsShort.isExact {depth : Nat} {n : Int} (h : IsShort n) : (Json.int n).IsExact depth := by
  obtain ⟨hlow, hhigh⟩ := h
  exact .int (by omega) (by omega)

theorem Fits.isExact (h : p.Fits) : p.toJson.IsExact Json.depthLimit := by
  suffices hmembers : ∀ m ∈ p.written, m.2.IsExact 126 from .obj hmembers
  simp only [written, toJson, Json.members, List.forall_mem_append, List.forall_mem_cons,
    List.not_mem_nil, false_imp_iff, implies_true, and_true]
  refine ⟨⟨⟨⟨isExact_ofOption _ _, ?_⟩, ?_⟩, ?_⟩, isExact_getD fun b _ => .bool b,
    isExact_getD fun n hn => (h.perMinute n hn).isExact,
    isExact_getD fun n hn => (h.perHour n hn).isExact⟩
  all_goals exact fun _ => isExact_nullableMember

theorem isSound_fields : fields.IsSound := by
  have hnullable (name : String) : (nullable name).IsSound := Fields.isSound_field name _ _ _
  have hoptional {α : Type} (name : String) (decode : Decoder α) :
      (Fields.optional name decode).IsSound := Fields.isSound_field name _ _ _
  exact (((((((hoptional _ _).map _).seq (hnullable _)).seq (hnullable _)).seq
    (hnullable _)).seq (hoptional _ _)).seq (hoptional _ _)).seq (hoptional _ _)

/-- The members of a written change, as they are read. -/
def drafts (p : DomainPatch) : List (String × Json.Draft) :=
  p.written.map fun m => (m.1, m.2.draft)

theorem member?_drafts (p : DomainPatch) (name : String) :
    Json.member? name p.drafts = (Json.member? name p.written).map Json.draft :=
  Json.member?_map Json.draft name p.written

theorem ofMembers_nullable {name : String} {value : Option (Option String)}
    (h : Json.member? name p.written = value.map Json.ofOption) :
    (nullable name).ofMembers p.drafts = .ok value := by
  have hdraft := p.member?_drafts name
  rw [h] at hdraft
  cases value with
  | none => exact Fields.ofMembers_field_none hdraft
  | some v =>
      rw [nullable, Fields.ofMembers_field hdraft]
      cases v <;> rfl

/-- A field that is written as null when it is not set. -/
theorem ofMembers_optional {α : Type} {name : String} {decode : Decoder α} {write : α → Json}
    {value other : Option α} (hwrite : ∀ a, (write a).draft ≠ .null)
    (hdecode : ∀ a b, decode (write a) = .ok b → b = a)
    (h : Json.member? name p.written = some ((value.map write).getD .null)) :
    (Fields.optional name decode).ofMembers p.drafts = .ok other ↔
      other = value ∧ ∀ a ∈ value, decode (write a) = .ok a := by
  have hdraft := p.member?_drafts name
  rw [h] at hdraft
  rw [Fields.optional, Fields.ofMembers_field hdraft]
  cases value with
  | none => simp [Json.draft, Decoder.orNull, eq_comm]
  | some a =>
      have hread : decode.orNull (write a) = (decode (write a)).map some := by
        unfold Decoder.orNull
        split
        · rename_i hnull
          exact absurd hnull (hwrite a)
        · rfl
      change decode.orNull (write a) = .ok other ↔ _
      rw [hread]
      cases ha : decode (write a) with
      | error e => simp [ha, Except.map]
      | ok b =>
          cases hdecode a b ha
          simp [ha, Except.map, eq_comm]

/-- Such a field, where all that is written of it can be read. -/
theorem ofMembers_optional_eq {α : Type} {name : String} {decode : Decoder α} {write : α → Json}
    {value : Option α} (hwrite : ∀ a, (write a).draft ≠ .null)
    (hdecode : ∀ a, decode (write a) = .ok a)
    (h : Json.member? name p.written = some ((value.map write).getD .null)) :
    (Fields.optional name decode).ofMembers p.drafts = .ok value := by
  have hsame : ∀ a b, decode (write a) = .ok b → b = a := by
    intro a b hb
    rw [hdecode] at hb
    exact (Except.ok.inj hb).symm
  exact (ofMembers_optional hwrite hsame h).2 ⟨rfl, fun a _ => hdecode a⟩

theorem int32_eq_ok {n m : Int} : Decoder.int32 (Json.int n) = .ok m ↔ m = n ∧ IsShort n := by
  simp only [Decoder.int32, Decoder.int, Json.draft, IsShort]
  split_ifs <;> simp <;> omega

theorem ofMembers_int32 {name : String} {value other : Option Int}
    (h : Json.member? name p.written = some ((value.map .int).getD .null)) :
    (Fields.optional name .int32).ofMembers p.drafts = .ok other ↔
      other = value ∧ ∀ n ∈ value, IsShort n := by
  rw [ofMembers_optional (fun _ => by simp [Json.draft]) (fun _ _ hn => (int32_eq_ok.1 hn).1) h]
  simp [int32_eq_ok]

theorem decode_word (m : DeliveryMode) :
    Decoder.word (Json.str (Vocabulary.word m)) = .ok m := by
  simp [Decoder.word, Decoder.spelled, Json.draft]

theorem decode_bool (b : Bool) : Decoder.bool (Json.bool b) = .ok b := rfl

/-- What is read of a change that was written is that change. -/
theorem decoder_toJson : decoder p.toJson = .ok q ↔ q = p ∧ p.Fits := by
  obtain ⟨hmode, hredirect, hbcc, hselector, henabled, hminute, hhour⟩ := p.member?_written
  have hmodeRead := ofMembers_optional_eq (fun _ => by simp [Json.draft]) decode_word hmode
  have henabledRead := ofMembers_optional_eq (fun _ => by simp [Json.draft]) decode_bool henabled
  rw [toJson_eq, decoder, Fields.decoder_obj isSound_fields p.nodup_written]
  change fields.ofMembers p.drafts = .ok q ↔ _
  simp only [fields, Fields.ofMembers_seq, Fields.ofMembers_map, hmodeRead,
    ofMembers_nullable hredirect, ofMembers_nullable hbcc, ofMembers_nullable hselector,
    henabledRead, ofMembers_int32 hminute, ofMembers_int32 hhour]
  simp only [Except.ok.injEq, exists_eq_left', exists_eq_left, and_assoc, exists_and_left]
  constructor
  · rintro ⟨hminuteFits, hhourFits, rfl⟩
    exact ⟨rfl, hminuteFits, hhourFits⟩
  · rintro ⟨rfl, hfits⟩
    exact ⟨hfits.perMinute, hfits.perHour, rfl⟩

/-- A change comes out of its text as it was. -/
theorem decoder_read (h : p.Fits) : decoder (Json.read p.toJson.render) = .ok p := by
  rw [Json.read_render h.isExact]
  exact decoder_toJson.2 ⟨rfl, h⟩

/-- What becomes of a setting: it keeps its value if a change leaves it alone. -/
structure IsSet {α : Type} (change : Option α) (old new : α) : Prop where
  kept : change = none → new = old
  set : ∀ a ∈ change, new = a

/-- What becomes of a domain. -/
structure IsMade (p : DomainPatch) (d e : Domain) : Prop where
  mode : IsSet (p.mode.map Stored.known) d.mode e.mode
  redirectTo : IsSet p.redirectTo d.redirectTo e.redirectTo
  bccTo : IsSet p.bccTo d.bccTo e.bccTo
  dkimSelector : IsSet p.dkimSelector d.dkimSelector e.dkimSelector
  dkimEnabled : IsSet p.dkimEnabled d.dkimEnabled e.dkimEnabled
  perMinute : IsSet p.perMinute d.perMinute e.perMinute
  perHour : IsSet p.perHour d.perHour e.perHour
  same : e.id = d.id ∧ e.name = d.name ∧ e.createdAt = d.createdAt
  hashed : e.configHash = e.computeHash

theorem isSet_getD {α : Type} (change : Option α) (old : α) :
    IsSet change old (change.getD old) where
  kept := by
    rintro rfl
    rfl
  set := by
    intro a ha
    rw [Option.mem_def.1 ha, Option.getD_some]

theorem isMade_apply (p : DomainPatch) (now : Timestamp) (d : Domain) :
    p.IsMade d (p.apply now d) where
  mode := isSet_getD ..
  redirectTo := isSet_getD ..
  bccTo := isSet_getD ..
  dkimSelector := isSet_getD ..
  dkimEnabled := isSet_getD ..
  perMinute := isSet_getD ..
  perHour := isSet_getD ..
  same := ⟨rfl, rfl, rfl⟩
  hashed := Domain.configHash_rehashed _

/-- The change that two changes amount to: of a field that both set, the second counts. -/
def andThen (p q : DomainPatch) : DomainPatch where
  mode := q.mode.or p.mode
  redirectTo := q.redirectTo.or p.redirectTo
  bccTo := q.bccTo.or p.bccTo
  dkimSelector := q.dkimSelector.or p.dkimSelector
  dkimEnabled := q.dkimEnabled.or p.dkimEnabled
  perMinute := q.perMinute.or p.perMinute
  perHour := q.perHour.or p.perHour

theorem getD_or {α : Type} (later earlier : Option α) (old : α) :
    (later.or earlier).getD old = later.getD (earlier.getD old) := by
  cases later <;> rfl

theorem apply_andThen (p q : DomainPatch) (first later : Timestamp) (d : Domain) :
    (p.andThen q).apply later d = q.apply later (p.apply first d) := by
  simp only [apply, andThen, Domain.rehashed, getD_or, Option.map_or]
  rfl

@[simp] theorem andThen_self (p : DomainPatch) : p.andThen p = p := by
  simp [andThen]

theorem apply_at (p : DomainPatch) (now later : Timestamp) (d : Domain) :
    p.apply later d = { p.apply now d with updatedAt := later } := rfl

/-- A change comes out of its text as it was, with fields left alone, emptied and set told apart;
what it makes of a domain is given field by field; and two changes, one after the other, make what
a single change does that takes each field from the second where that sets it, at whatever instants
they are made. -/
theorem reread_and_composed (p q : DomainPatch) (hp : p.Fits) :
    (∀ r, decoder (Json.read p.toJson.render) = .ok r ↔ r = p) ∧
      p.toJson.get? "redirect_to" = p.redirectTo.map Json.ofOption ∧
      p.toJson.get? "bcc_to" = p.bccTo.map Json.ofOption ∧
      p.toJson.get? "dkim_selector" = p.dkimSelector.map Json.ofOption ∧
      ∀ (d : Domain) (first second other : Timestamp),
        p.IsMade d (p.apply first d) ∧
        q.apply second (p.apply first d) =
          { (p.andThen q).apply other d with updatedAt := second } ∧
        p.apply second (p.apply first d) = { p.apply first d with updatedAt := second } := by
  obtain ⟨-, hredirect, hbcc, hselector, -⟩ := p.member?_written
  refine ⟨?_, hredirect, hbcc, hselector, ?_⟩
  · intro r
    rw [decoder_read hp, Except.ok.injEq, eq_comm]
  · intro d first second other
    refine ⟨p.isMade_apply first d, ?_, ?_⟩
    · rw [← apply_andThen, apply_at]
    · rw [← apply_andThen, andThen_self, apply_at]

/-- A change that empties a setting, and sets one and a limit. -/
def emptying : DomainPatch :=
  { redirectTo := some none, dkimSelector := some (some "s2"), perMinute := some (-60) }

/-- A change that sets again what the other emptied. -/
def restoring : DomainPatch := { redirectTo := some (some "qa@example.com") }

def redirected : Domain :=
  { Domain.create ⟨1⟩ "here.example" ⟨0, 0⟩ with
    redirectTo := some "old@example.com", bccTo := some "audit@example.com" }

/-- A setting that is emptied and then set again ends up as it is set, and one that neither change
mentions stays. -/
theorem emptied_then_restored :
    emptying.Fits ∧ decoder (Json.read emptying.toJson.render) = .ok emptying ∧
      emptying.toJson.get? "redirect_to" = some .null ∧ emptying.toJson.get? "bcc_to" = none ∧
      (emptying.apply ⟨0, 0⟩ redirected).redirectTo = none ∧
      (emptying.apply ⟨0, 0⟩ redirected).bccTo = some "audit@example.com" ∧
      restoring.apply ⟨60, 0⟩ (emptying.apply ⟨0, 0⟩ redirected) =
        { (emptying.andThen restoring).apply ⟨0, 0⟩ redirected with updatedAt := ⟨60, 0⟩ } := by
  have hfits : emptying.Fits := by
    constructor
    · rintro n ⟨⟩
      exact ⟨by decide, by decide⟩
    · rintro n ⟨⟩
  obtain ⟨hread, hredirect, hbcc, -, hmade⟩ := reread_and_composed emptying restoring hfits
  obtain ⟨hset, hcomposed, -⟩ := hmade redirected ⟨0, 0⟩ ⟨60, 0⟩ ⟨0, 0⟩
  exact ⟨hfits, (hread _).2 rfl, hredirect, hbcc, hset.redirectTo.set none rfl,
    hset.bccTo.kept rfl, hcomposed⟩

end DomainPatch

end Mailroom
