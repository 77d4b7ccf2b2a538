import Mathlib.Data.List.Nodup
import Mailroom.Json.Decode

/-!
Records read from the objects that they are written as.  The fields of a record are read twice, for
their faults in the order of the text and for their values in the order of the record.  Main
statement: an object that names no member twice is read as the record that its members give, since
members that give a value have no fault.
-/

namespace Mailroom.Json

variable {α β : Type}

@[simp] theorem member?_nil (name : String) : member? name ([] : List (String × α)) = none := rfl

theorem member?_cons (name : String) (m : String × α) (members : List (String × α)) :
    member? name (m :: members) =
      (member? name members).or (if m.1 = name then some m.2 else none) := by
  rw [member?]
  cases member? name members <;> rfl

theorem member?_append (name : String) (xs ys : List (String × α)) :
    member? name (xs ++ ys) = (member? name ys).or (member? name xs) := by
  induction xs with
  | nil => simp
  | cons x xs ih => rw [List.cons_append, member?_cons, ih, member?_cons, Option.or_assoc]

theorem member?_map (f : α → β) (name : String) (members : List (String × α)) :
    member? name (members.map fun m => (m.1, f m.2)) = (member? name members).map f := by
  induction members with
  | nil => rfl
  | cons m members ih =>
      rw [List.map_cons, member?_cons, ih, member?_cons]
      by_cases hname : m.1 = name <;> cases member? name members <;> simp [hname]

theorem member?_eq_none {name : String} {members : List (String × α)}
    (h : name ∉ members.map Prod.fst) : member? name members = none := by
  induction members with
  | nil => rfl
  | cons m members ih =>
      rw [List.map_cons, List.mem_cons, not_or] at h
      simp [member?_cons, ih h.2, Ne.symm h.1]

/-- Where no name comes twice, each member is found under its name. -/
theorem member?_of_mem {members : List (String × α)} (hnames : (members.map Prod.fst).Nodup)
    {m : String × α} (hm : m ∈ members) : member? m.1 members = some m.2 := by
  induction members with
  | nil => cases hm
  | cons first members ih =>
      rw [List.map_cons, List.nodup_cons] at hnames
      rw [member?_cons]
      rcases List.mem_cons.1 hm with rfl | hm
      · simp [member?_eq_none hnames.1]
      · simp [ih hnames.2 hm]

namespace Fields

variable {f : Fields (α → β)} {g : Fields α} {members : List (String × Draft)}

theorem ofMembers_seq {b : β} : (f <*> g).ofMembers members = .ok b ↔
    ∃ h, f.ofMembers members = .ok h ∧ ∃ a, g.ofMembers members = .ok a ∧ h a = b := by
  change (f.ofMembers members >>= fun h => g.ofMembers members >>= fun a => .ok (h a)) = .ok b ↔ _
  cases hf : f.ofMembers members with
  | error e => simp [bind, Except.bind]
  | ok h => cases hg : g.ofMembers members <;> simp [bind, Except.bind]

theorem ofMembers_map {h : α → β} {b : β} : (h <$> g).ofMembers members = .ok b ↔
    ∃ a, g.ofMembers members = .ok a ∧ h a = b := by
  change (pure h <*> g).ofMembers members = .ok b ↔ _
  rw [ofMembers_seq]
  constructor
  · rintro ⟨k, hk, ha⟩
    cases hk
    exact ha
  · exact fun ha => ⟨h, rfl, ha⟩

theorem ofMembers_field {name : String} {decode : Decoder α} {absent short : Option α}
    {v : Draft} (hv : member? name members = some v) :
    (field name decode absent short).ofMembers members = decode v := by
  simp [field, hv]

theorem ofMembers_field_none {name : String} {decode : Decoder α} {a : α} {short : Option α}
    (hv : member? name members = none) :
    (field name decode (some a) short).ofMembers members = .ok a := by
  simp [field, hv]

/-- Members that give a value pass the checks of the fields. -/
def IsSound (g : Fields α) : Prop :=
  ∀ members a, g.ofMembers members = .ok a →
    ∀ c ∈ g.checks, ∀ v, member? c.1 members = some v → c.2 v = .ok ()

theorem isSound_field (name : String) (decode : Decoder α) (absent short : Option α) :
    (field name decode absent short).IsSound := by
  intro members a ha c hc v hv
  cases List.mem_singleton.1 hc
  have hread : decode v = .ok a := by
    rwa [ofMembers_field hv] at ha
  simp [hread, Except.map]

theorem IsSound.seq (hf : f.IsSound) (hg : g.IsSound) : (f <*> g).IsSound := by
  intro members b hb c hc v hv
  obtain ⟨h, hh, a, ha, -⟩ := ofMembers_seq.1 hb
  rcases List.mem_append.1 hc with hc | hc
  · exact hf members h hh c hc v hv
  · exact hg members a ha c hc v hv

theorem IsSound.map (hg : g.IsSound) (h : α → β) : (h <$> g).IsSound := by
  have hpure : (pure h : Fields (α → β)).IsSound := by
    intro _ _ _ c hc
    cases hc
  exact hpure.seq hg

theorem checkMembers_draftMembers {checks : List (String × (Draft → Except Refusal Unit))}
    {members : List (String × Json)} (hnames : (members.map Prod.fst).Nodup)
    {seen : List String} (hseen : ∀ m ∈ members, m.1 ∉ seen)
    (hchecks : ∀ m ∈ members, ∀ check, checks.lookup m.1 = some check →
      check m.2.draft = .ok ()) :
    checkMembers checks (draftMembers members) seen = .ok () := by
  induction members generalizing seen with
  | nil => rfl
  | cons m members ih =>
      obtain ⟨name, value⟩ := m
      rw [List.map_cons, List.nodup_cons] at hnames
      have hrest : ∀ m ∈ members, ∀ check, checks.lookup m.1 = some check →
          check m.2.draft = .ok () := fun m hm => hchecks m (List.mem_cons_of_mem _ hm)
      rw [draftMembers, checkMembers]
      cases hlookup : checks.lookup name with
      | none =>
          have hnext := ih hnames.2 (fun m hm => hseen m (List.mem_cons_of_mem _ hm)) hrest
          simp [Decoder.name, Decoder.ended, isWhole_draft, hlookup, hnext, bind, Except.bind]
      | some check =>
          have hpass : check value.draft = .ok () :=
            hchecks (name, value) List.mem_cons_self check hlookup
          have hnew : name ∉ seen := hseen (name, value) List.mem_cons_self
          have hnow : ∀ m ∈ members, m.1 ∉ name :: seen := by
            intro m hm hmem
            rcases List.mem_cons.1 hmem with hname | hmem
            · exact hnames.1 (List.mem_map.2 ⟨m, hm, hname⟩)
            · exact hseen m (List.mem_cons_of_mem _ hm) hmem
          have hnext := ih hnames.2 hnow hrest
          simp [Decoder.name, hlookup, hnew, hpass, hnext, bind, Except.bind]

/-- What an object without repeated names is read as. -/
theorem decoder_obj {a : α} (hg : g.IsSound) {members : List (String × Json)}
    (hnames : (members.map Prod.fst).Nodup) :
    g.decoder (obj members : Json) = .ok a ↔
      g.ofMembers (members.map fun m => (m.1, m.2.draft)) = .ok a := by
  have hread : g.decoder (obj members : Json) =
      (checkMembers g.checks (draftMembers members) []).bind fun _ =>
        g.ofMembers (members.map fun m => (m.1, m.2.draft)) := by
    rw [← named_draftMembers]
    rfl
  rw [hread]
  constructor
  · intro h
    cases hcheck : checkMembers g.checks (draftMembers members) [] with
    | error e => simp [hcheck, Except.bind] at h
    | ok _ => simpa [hcheck, Except.bind] using h
  · intro h
    have hcheck : checkMembers g.checks (draftMembers members) [] = .ok () := by
      refine checkMembers_draftMembers hnames (fun _ _ => List.not_mem_nil) ?_
      intro m hm check hlookup
      refine hg _ a h (m.1, check) ?_ m.2.draft ?_
      · obtain ⟨before, after, hwhole, -⟩ := List.lookup_eq_some_iff.1 hlookup
        simp [hwhole]
      · rw [member?_map, member?_of_mem hnames hm, Option.map_some]
    rw [hcheck]
    exact h

end Fields

end Mailroom.Json
