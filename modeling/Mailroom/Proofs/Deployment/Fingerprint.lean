import Mathlib
import Mailroom.Proofs.Deployment.Calls
import Mailroom.Text.Cut
import Mailroom.Text.Utf8

/-!
What the hash of a domain's settings tells apart.  The texts of the settings are closed by zero bytes
and an absent one is written as an empty one.  Main statements: as long as no text has the zero
character in it, and SHA-256 does not collide, two domains have one hash exactly if they have the same
settings up to that; and an update of other settings marks all that is deployed with the old ones.
-/

namespace Mailroom

namespace DomainSpec

/-- The settings apart from their hash. -/
def unhashed (s : DomainSpec) : DomainSpec := { s with configHash := "" }

/-- The settings apart from their hash, with absent texts taken for empty ones. -/
def leveled (s : DomainSpec) : DomainSpec :=
  { s with
    redirectTo := some (s.redirectTo.getD "")
    bccTo := some (s.bccTo.getD "")
    dkimSelector := some (s.dkimSelector.getD "")
    configHash := "" }

/-- A text that may be absent is never an empty one. -/
def IsTrim (s : DomainSpec) : Prop :=
  s.redirectTo ≠ some "" ∧ s.bccTo ≠ some "" ∧ s.dkimSelector ≠ some ""

theorem getD_inj {a b : Option String} (ha : a ≠ some "") (hb : b ≠ some "")
    (h : a.getD "" = b.getD "") : a = b := by
  cases a <;> cases b <;> simp_all

theorem unhashed_eq_iff {s t : DomainSpec} (hs : s.IsTrim) (ht : t.IsTrim) :
    s.unhashed = t.unhashed ↔ s.leveled = t.leveled := by
  constructor
  · intro h
    change s.unhashed.leveled = t.unhashed.leveled
    rw [h]
  · intro h
    simp only [leveled, DomainSpec.mk.injEq, Option.some.injEq] at h
    obtain ⟨hname, hmode, hredirect, hbcc, hselector, henabled, hminute, hhour, -⟩ := h
    simp only [unhashed, DomainSpec.mk.injEq]
    exact ⟨hname, hmode, getD_inj hs.1 ht.1 hredirect, getD_inj hs.2.1 ht.2.1 hbcc,
      getD_inj hs.2.2 ht.2.2 hselector, henabled, hminute, hhour, trivial⟩

end DomainSpec

namespace Domain

/-- The texts that are free to be chosen. -/
def texts (d : Domain) : List String :=
  [d.name, d.mode.text, d.redirectTo.getD "", d.bccTo.getD "", d.dkimSelector.getD ""]

/-- No text has the zero character in it. -/
def IsPlain (d : Domain) : Prop := ∀ s ∈ d.texts, '\x00' ∉ s.toList

instance : DecidablePred IsPlain := fun d =>
  inferInstanceAs (Decidable (∀ s ∈ d.texts, '\x00' ∉ s.toList))

/-- SHA-256 collides on the settings of two domains. -/
def Collide (d e : Domain) : Prop :=
  sealed d.fingerprint ≠ sealed e.fingerprint ∧
    Digest.sha256 (sealed d.fingerprint) = Digest.sha256 (sealed e.fingerprint)

theorem sealed_cons (s : String) (ss : List String) :
    sealed (s :: ss) = s.toUTF8.toList ++ 0 :: sealed ss := by
  simp [sealed]

/-- Texts without the zero character can be read back. -/
theorem sealed_injective {ss ts : List String} (hs : ∀ s ∈ ss, '\x00' ∉ s.toList)
    (ht : ∀ t ∈ ts, '\x00' ∉ t.toList) (h : sealed ss = sealed ts) : ss = ts := by
  induction ss generalizing ts with
  | nil =>
      cases ts with
      | nil => rfl
      | cons t ts => simp [sealed] at h
  | cons s ss ih =>
      cases ts with
      | nil => simp [sealed] at h
      | cons t ts =>
          rw [List.forall_mem_cons] at hs ht
          rw [sealed_cons, sealed_cons] at h
          obtain ⟨hbytes, hrest⟩ := Text.append_cons_inj (fun hm => hs.1 (Text.zero_mem_toUTF8 hm))
            (fun hm => ht.1 (Text.zero_mem_toUTF8 hm)) h
          rw [Text.toUTF8_injective hbytes, ih hs.2 ht.2 hrest]

theorem zero_not_mem_toString (n : Int) : '\x00' ∉ (toString n).toList := by
  have hdigits : ∀ m : Nat, '\x00' ∉ (Nat.repr m).toList := by
    intro m hm
    rw [Nat.toList_repr] at hm
    have hdigit := Nat.isDigit_of_mem_toDigits (by decide) (by decide) hm
    cases hdigit
  change '\x00' ∉ (Int.repr n).toList
  cases n with
  | ofNat m => exact hdigits m
  | negSucc m =>
      change '\x00' ∉ ("-" ++ Nat.repr (m + 1)).toList
      rw [String.toList_append, List.mem_append, not_or]
      exact ⟨by decide, hdigits (m + 1)⟩

theorem IsPlain.fingerprint {d : Domain} (hd : d.IsPlain) :
    ∀ s ∈ d.fingerprint, '\x00' ∉ s.toList := by
  have hsplit : d.fingerprint = d.texts ++
      [if d.dkimEnabled then "1" else "0", toString d.perMinute, toString d.perHour] := rfl
  rw [hsplit, List.forall_mem_append]
  refine ⟨hd, ?_⟩
  simp only [List.forall_mem_cons]
  refine ⟨?_, zero_not_mem_toString _, zero_not_mem_toString _, nofun⟩
  split <;> decide

theorem fingerprint_eq_iff {d e : Domain} :
    d.fingerprint = e.fingerprint ↔
      (DomainSpec.ofDomain d).leveled = (DomainSpec.ofDomain e).leveled := by
  have hflag : ∀ a b : Bool, ((if a then "1" else "0") = if b then "1" else "0") ↔ a = b := by
    decide
  have hint : ∀ m n : Int, toString m = toString n ↔ m = n := fun _ _ => Int.repr_inj
  simp only [fingerprint, DomainSpec.leveled, DomainSpec.ofDomain, List.cons.injEq, hflag, hint,
    DomainSpec.mk.injEq, Option.some.injEq]

theorem computeHash_eq_of_fingerprint {d e : Domain} (h : d.fingerprint = e.fingerprint) :
    d.computeHash = e.computeHash := by
  rw [computeHash, computeHash, h]

/-- Without a collision, plain domains have one hash exactly if they have the same settings, where
an absent text counts as an empty one. -/
theorem computeHash_eq_iff {d e : Domain} (hd : d.IsPlain) (he : e.IsPlain) (hno : ¬ Collide d e) :
    d.computeHash = e.computeHash ↔
      (DomainSpec.ofDomain d).leveled = (DomainSpec.ofDomain e).leveled := by
  rw [← fingerprint_eq_iff]
  constructor
  · intro h
    apply sealed_injective hd.fingerprint he.fingerprint
    by_contra hne
    exact hno ⟨hne, Text.hexOfBytes_injective h⟩
  · exact computeHash_eq_of_fingerprint

end Domain

namespace DomainSync

/-- An update of a known domain succeeds, and marks what is deployed with another hash than that of
the new settings. -/
theorem marked_of_update {u v : Site} {place : Nat} {name : String} {patch : DomainPatch}
    {config : DomainConfig} {result : Except DispatchError Domain}
    (hids : (u.tables.domains.map Domain.id).Nodup)
    (hsome : u.tables.domainByName name = some config)
    (hrun : (Call.update name patch).program.Completes (Site.acts place) u result v) :
    ∃ stored, result = .ok (patch.apply stored config.domain) ∧
      ∀ r ∈ u.tables.deployments, r.domainId = config.domain.id → r.status = .known .deployed →
        r.deployedHash ≠ some (patch.apply stored config.domain).configHash →
          { r with status := .known .outdated } ∈ v.tables.deployments := by
  cases outcome_update hrun with
  | unknownDomain hnone => cases hsome.symm.trans hnone
  | unknownServer _ htarget _ => cases htarget
  | @updated _ _ found d stored marked hfound hd =>
      obtain rfl := Option.some.inj (hsome.symm.trans hfound)
      rw [Tables.updateDomain_of_mem hids (Tables.domainByName_eq_some hsome).1] at hd
      obtain rfl := Option.some.inj hd
      refine ⟨stored, rfl, fun r hr hid hstatus hhash => ?_⟩
      have hstale : Tables.isStale config.domain.id
          (patch.apply stored config.domain).configHash r = true := by
        simpa [Tables.isStale, hid, hstatus] using hhash
      refine List.mem_map.2 ⟨r, ?_, if_pos hstale⟩
      change r ∈ (u.tables.updateDomain config.domain.id patch stored).2.deployments
      rw [Tables.deployments_updateDomain]
      exact hr

/-- The hash tells apart any two settings of plain domains that differ in more than whether a text is
absent or empty, as long as SHA-256 does not collide on them.  So an update to such other settings
succeeds and marks all that is deployed with the old ones. -/
theorem settings_told_apart (d : Domain) :
    (∀ e : Domain, d.IsPlain → e.IsPlain → ¬ d.Collide e →
      (d.computeHash = e.computeHash ↔
        (DomainSpec.ofDomain d).leveled = (DomainSpec.ofDomain e).leveled) ∧
      ((DomainSpec.ofDomain d).IsTrim → (DomainSpec.ofDomain e).IsTrim →
        (d.computeHash = e.computeHash ↔
          (DomainSpec.ofDomain d).unhashed = (DomainSpec.ofDomain e).unhashed))) ∧
    ∀ (u : Site) (place : Nat) (name : String) (patch : DomainPatch) (rows : List Deployment),
      (u.tables.domains.map Domain.id).Nodup → u.tables.domainByName name = some ⟨d, rows⟩ →
        (∃ result v, (Call.update name patch).program.Completes (Site.acts place) u result v) ∧
        ∀ result v, (Call.update name patch).program.Completes (Site.acts place) u result v →
          ∃ stored, result = .ok (patch.apply stored d) ∧
            (d.IsPlain → (patch.apply stored d).IsPlain → ¬ d.Collide (patch.apply stored d) →
              (DomainSpec.ofDomain d).leveled ≠
                (DomainSpec.ofDomain (patch.apply stored d)).leveled →
              ∀ r ∈ u.tables.deployments, r.domainId = d.id →
                r.status = .known .deployed → r.deployedHash = some d.computeHash →
                  { r with status := .known .outdated } ∈ v.tables.deployments) := by
  constructor
  · intro e hd he hno
    have hiff := Domain.computeHash_eq_iff hd he hno
    refine ⟨hiff, fun hdt het => ?_⟩
    rw [DomainSpec.unhashed_eq_iff hdt het, hiff]
  · intro u place name patch rows hids hsome
    refine ⟨⟨_, _, Site.completes_respond (c := Trial.fair) (fun _ => rfl) place _ u⟩, ?_⟩
    intro result v hrun
    obtain ⟨stored, hresult, hmarked⟩ := marked_of_update hids hsome hrun
    refine ⟨stored, hresult, fun hd he hno hother r hr hid hstatus hhash => ?_⟩
    refine hmarked r hr hid hstatus fun hsame => hother ?_
    rw [← Domain.computeHash_eq_iff hd he hno]
    exact Option.some.inj (hhash.symm.trans hsame)

namespace Trial

def patch : DomainPatch := { mode := some .sandbox }

def changed : Domain := patch.apply ⟨0, 0⟩ domain

theorem beq_configHash : (domain.configHash == changed.configHash) = false := by decide +kernel

theorem configHash_ne : domain.configHash ≠ changed.configHash :=
  ne_of_beq_false beq_configHash

theorem configHash_domain : domain.configHash = domain.computeHash := Domain.configHash_rehashed _

theorem configHash_changed : changed.configHash = changed.computeHash := Domain.configHash_rehashed _

theorem not_collide (stored : Timestamp) : ¬ domain.Collide (patch.apply stored domain) := by
  rintro ⟨-, hdigest⟩
  have hsame : (patch.apply stored domain).fingerprint = changed.fingerprint := rfl
  rw [hsame] at hdigest
  apply configHash_ne
  rw [configHash_domain, configHash_changed, Domain.computeHash, Domain.computeHash, hdigest]

theorem isPlain_domain : domain.IsPlain := by decide +kernel

theorem isPlain_changed : changed.IsPlain := by decide +kernel

theorem leveled_ne (stored : Timestamp) :
    (DomainSpec.ofDomain domain).leveled ≠
      (DomainSpec.ofDomain (patch.apply stored domain)).leveled := by
  intro h
  have hmode := congrArg DomainSpec.mode h
  change "production" = "sandbox" at hmode
  exact absurd hmode (by decide)

/-- The domain with an empty address in place of none. -/
def emptied : Domain := { domain with redirectTo := some "" }

end Trial

open Trial in
/-- What was deployed in production mode is outdated when the mode becomes another one. -/
theorem Trial.outdated_by_mode :
    domain.IsPlain ∧ changed.IsPlain ∧ ¬ domain.Collide changed ∧
      domain.computeHash ≠ changed.computeHash ∧
      (once.tables.domains.map Domain.id).Nodup ∧
      once.tables.domainByName "here.example" =
        some ⟨domain, once.tables.deploymentsOf domain.id⟩ ∧
      ∃ result v r, (Call.update "here.example" patch).program.Completes (Site.acts 1) once result v ∧
        r ∈ v.tables.deployments ∧ r.server = "north" ∧ r.status = .known .outdated := by
  have hids : (once.tables.domains.map Domain.id).Nodup := List.nodup_singleton _
  have hsome : once.tables.domainByName "here.example" =
      some ⟨domain, once.tables.deploymentsOf domain.id⟩ := rfl
  have hne : domain.computeHash ≠ changed.computeHash := fun h =>
    leveled_ne ⟨0, 0⟩
      ((((settings_told_apart domain).1 _ isPlain_domain isPlain_changed (not_collide _)).1).1 h)
  obtain ⟨⟨result, v, hrun⟩, hmarked⟩ :=
    (settings_told_apart domain).2 once 1 "here.example" patch _ hids hsome
  obtain ⟨stored, -, hrows⟩ := hmarked result v hrun
  have hrow : once.tables.deployments =
      [⟨.issued 0, domain.id, "north", .known .deployed, some domain.configHash, 0, none,
        some ⟨0, 0⟩⟩] := rfl
  refine ⟨isPlain_domain, isPlain_changed, not_collide _, hne, hids, hsome, result, v, _, hrun,
    hrows isPlain_domain isPlain_changed (not_collide _) (leveled_ne _) _
      (hrow ▸ List.mem_singleton.2 rfl) rfl rfl (congrArg some configHash_domain), rfl, rfl⟩

open Trial in
/-- It is not so that domains of one hash have the same settings: an empty address to redirect to
counts as none. -/
theorem Trial.empty_counts_as_none :
    ¬ ∀ d e : Domain, ¬ d.Collide e → d.computeHash = e.computeHash →
      (DomainSpec.ofDomain d).unhashed = (DomainSpec.ofDomain e).unhashed := by
  intro hclaim
  have hfingerprint : domain.fingerprint = emptied.fingerprint := rfl
  have hno : ¬ domain.Collide emptied := fun h => h.1 (congrArg Domain.sealed hfingerprint)
  have hsame := hclaim domain emptied hno (Domain.computeHash_eq_of_fingerprint hfingerprint)
  have hredirect := congrArg DomainSpec.redirectTo hsame
  change none = some "" at hredirect
  cases hredirect

end DomainSync

end Mailroom
