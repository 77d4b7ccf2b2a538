import Mailroom.Proofs.Store.Calls

/-!
What the calls to the store in memory do to domains and their deployments.  Main statement: a listing
of a domain's deployments shows its rows in the order of the table, as long as positions ascend in it.
-/

namespace Mailroom

/-- Two deployments of one domain are on different servers, and the first one has the lower
position. -/
def Deployment.Precedes (a b : Deployment) : Prop :=
  a.domainId = b.domainId → a.server ≠ b.server ∧ a.position < b.position

namespace Tables

variable {t : Tables} {now : Timestamp} {id : Uuid} {server : String} {α : Type}

theorem mem_updateFirst {test : α → Bool} {change : α → α} {rows : List α} {r : α}
    (hr : r ∈ updateFirst test change rows) :
    r ∈ rows ∨ ∃ s ∈ rows, test s = true ∧ r = change s := by
  induction rows with
  | nil => cases hr
  | cons s rows ih =>
      rw [updateFirst] at hr
      split at hr
      · rename_i hs
        rcases List.mem_cons.1 hr with rfl | hr
        · exact .inr ⟨s, List.mem_cons_self, hs, rfl⟩
        · exact .inl (List.mem_cons_of_mem s hr)
      · rcases List.mem_cons.1 hr with rfl | hr
        · exact .inl List.mem_cons_self
        · rcases ih hr with hold | ⟨u, hu, htest, rfl⟩
          · exact .inl (List.mem_cons_of_mem s hold)
          · exact .inr ⟨u, List.mem_cons_of_mem s hu, htest, rfl⟩

theorem mem_updateFirst_of_find? {test : α → Bool} {change : α → α} {rows : List α} {r : α}
    (hr : rows.find? test = some r) : change r ∈ updateFirst test change rows := by
  induction rows with
  | nil => cases hr
  | cons s rows ih =>
      rw [updateFirst]
      rw [List.find?_cons] at hr
      split at hr
      · rename_i hs
        obtain rfl := Option.some.inj hr
        rw [if_pos hs]
        exact List.mem_cons_self
      · rename_i hs
        rw [if_neg (by simp [hs])]
        exact List.mem_cons_of_mem _ (ih hr)

def rowsOf (t : Tables) (id : Uuid) : List Deployment :=
  t.deployments.filter fun r => r.domainId == id

@[simp] theorem mem_rowsOf {r : Deployment} :
    r ∈ t.rowsOf id ↔ r ∈ t.deployments ∧ r.domainId = id := by
  simp [rowsOf]

theorem deploymentsOf_eq_rowsOf (hrows : t.deployments.Pairwise Deployment.Precedes) (id : Uuid) :
    t.deploymentsOf id = t.rowsOf id := by
  apply List.mergeSort_of_pairwise
  rw [List.pairwise_filter]
  refine hrows.imp fun {a b} hab ha hb => ?_
  have hsame : a.domainId = b.domainId := by
    rw [beq_iff_eq] at ha hb
    rw [ha, hb]
  simp [deployedBefore, (hab hsame).2]

theorem domainByName_eq_some {name : String} {config : DomainConfig}
    (h : t.domainByName name = some config) :
    config.domain ∈ t.domains ∧ config.domain.name = Text.lowered name ∧
      config.deployments = t.deploymentsOf config.domain.id := by
  obtain ⟨d, hd, rfl⟩ := Option.map_eq_some_iff.1 h
  exact ⟨List.mem_of_find?_eq_some hd, by simpa using List.find?_some hd, rfl⟩

theorem domainByName_name (hnames : (t.domains.map Domain.name).Nodup) {d : Domain}
    (hd : d ∈ t.domains) (hlower : Text.lowered d.name = d.name) :
    t.domainByName d.name = some ⟨d, t.deploymentsOf d.id⟩ := by
  rw [domainByName, hlower, find?_key hnames hd]
  rfl

/-- A deployment holds the settings that its domain has. -/
def IsCurrent (t : Tables) (r : Deployment) : Prop :=
  ∃ d ∈ t.domains, d.id = r.domainId ∧ r.deployedHash = some d.configHash

theorem domains_updateDomain (hids : (t.domains.map Domain.id).Nodup) (id : Uuid)
    (patch : DomainPatch) :
    (t.updateDomain id patch now).2.domains =
      t.domains.map fun d => if d.id == id then patch.apply now d else d := by
  rw [← updateFirst_eq_map (k := id) hids fun d hd => by simpa using hd, updateDomain]
  split
  · rename_i hnone
    refine (updateFirst_eq_self fun d hd => ?_).symm
    simpa using List.find?_eq_none.1 hnone d hd
  · rfl

theorem updateDomain_of_mem (hids : (t.domains.map Domain.id).Nodup) {d : Domain}
    (hd : d ∈ t.domains) (patch : DomainPatch) :
    (t.updateDomain d.id patch now).1 = some (patch.apply now d) := by
  rw [updateDomain, find?_key hids hd]

/-- An update keeps what a change of settings keeps. -/
theorem map_updateDomain {β : Type} (hids : (t.domains.map Domain.id).Nodup) (id : Uuid)
    {patch : DomainPatch} {f : Domain → β} (hf : ∀ d, f (patch.apply now d) = f d) :
    (t.updateDomain id patch now).2.domains.map f = t.domains.map f := by
  rw [domains_updateDomain hids, List.map_map]
  apply List.map_congr_left
  intro d _
  rw [Function.comp_apply]
  split
  · exact hf d
  · rfl

/-- The reply to an update is a row after it, and it has the identifier that was asked for. -/
theorem mem_of_updateDomain (hids : (t.domains.map Domain.id).Nodup) {patch : DomainPatch}
    {d : Domain} (hd : (t.updateDomain id patch now).1 = some d) :
    d ∈ (t.updateDomain id patch now).2.domains ∧ d.id = id := by
  rw [domains_updateDomain hids]
  rw [updateDomain] at hd
  split at hd
  · cases hd
  · rename_i e hfind
    obtain rfl := Option.some.inj hd
    have hid : e.id = id := by simpa using List.find?_some hfind
    exact ⟨List.mem_map.2 ⟨e, List.mem_of_find?_eq_some hfind, by simp [hid]⟩, hid⟩

@[simp] theorem deployments_updateDomain (id : Uuid) (patch : DomainPatch) :
    (t.updateDomain id patch now).2.deployments = t.deployments := by
  rw [updateDomain]
  split <;> rfl

@[simp] theorem domains_putDeployment (status : DeploymentStatus) (hash error : Option String) :
    (t.putDeployment id server status hash error now).2.domains = t.domains := by
  rw [putDeployment]
  split <;> rfl

section

variable (status : DeploymentStatus) (hash error : Option String)

@[simp] theorem isDeployment_iff {r : Deployment} :
    isDeployment id server r = true ↔ r.domainId = id ∧ r.server = server := by
  simp [isDeployment]

def firstAttempt (t : Tables) (id : Uuid) (server : String) (status : DeploymentStatus)
    (hash error : Option String) (now : Timestamp) : Deployment :=
  ⟨.issued t.issued, id, server, .known status, hash, t.nextPosition id, error,
    if status = .deployed then some now else none⟩

theorem deployments_putDeployment_of_mem (hrows : t.deployments.Pairwise Deployment.Precedes)
    (hsome : ∃ r ∈ t.deployments, isDeployment id server r = true) :
    (t.putDeployment id server status hash error now).2.deployments =
      t.deployments.map fun r =>
        if isDeployment id server r then redeployed status hash error now r else r := by
  have hkeys : (t.deployments.map fun r => (r.domainId, r.server)).Nodup := by
    rw [List.Nodup, List.pairwise_map]
    refine hrows.imp fun {a b} hab hsame => ?_
    obtain ⟨hid, hserver⟩ := Prod.mk.inj hsame
    exact (hab hid).1 hserver
  rw [putDeployment]
  split
  · refine updateFirst_eq_map (k := (id, server)) hkeys fun r hr => ?_
    obtain ⟨rfl, rfl⟩ := isDeployment_iff.1 hr
    rfl
  · rename_i hnone
    obtain ⟨r, hr, htest⟩ := hsome
    exact absurd htest (List.find?_eq_none.1 hnone r hr)

theorem deployments_putDeployment_of_not_mem
    (hnone : ¬ ∃ r ∈ t.deployments, isDeployment id server r = true) :
    (t.putDeployment id server status hash error now).2.deployments =
      t.deployments ++ [t.firstAttempt id server status hash error now] := by
  have hfind : t.deployments.find? (isDeployment id server) = none := by
    rw [List.find?_eq_none]
    exact fun r hr htest => hnone ⟨r, hr, htest⟩
  rw [putDeployment, hfind]
  rfl

/-- A row after an attempt is one that was there, or it says how the attempt went. -/
theorem mem_putDeployment {r : Deployment}
    (hr : r ∈ (t.putDeployment id server status hash error now).2.deployments) :
    r ∈ t.deployments ∨ r.domainId = id ∧ r.server = server ∧ r.status = .known status ∧
      ∀ h, hash = some h → r.deployedHash = some h := by
  rw [putDeployment] at hr
  split at hr
  · rcases mem_updateFirst hr with hold | ⟨s, -, htest, rfl⟩
    · exact .inl hold
    · obtain ⟨hid, hserver⟩ := isDeployment_iff.1 htest
      refine .inr ⟨hid, hserver, rfl, ?_⟩
      rintro h rfl
      rfl
  · rcases List.mem_append.1 hr with hold | hnew
    · exact .inl hold
    · obtain rfl := List.mem_singleton.1 hnew
      exact .inr ⟨rfl, rfl, rfl, fun h hh => hh⟩

/-- The reply to an attempt is a row after it that says how the attempt went. -/
theorem putDeployment_spec :
    (t.putDeployment id server status hash error now).1 ∈
        (t.putDeployment id server status hash error now).2.deployments ∧
      isDeployment id server (t.putDeployment id server status hash error now).1 = true ∧
      (t.putDeployment id server status hash error now).1.status = .known status ∧
      (t.putDeployment id server status hash error now).1.lastError = error ∧
      ∀ h, hash = some h →
        (t.putDeployment id server status hash error now).1.deployedHash = some h := by
  rw [putDeployment]
  split
  · rename_i d hfind
    have htest : isDeployment id server d = true := List.find?_some hfind
    refine ⟨mem_updateFirst_of_find? hfind, htest, rfl, rfl, ?_⟩
    rintro h rfl
    rfl
  · exact ⟨List.mem_append_right _ List.mem_cons_self, isDeployment_iff.2 ⟨rfl, rfl⟩, rfl, rfl,
      fun h hh => hh⟩

theorem mem_dropDeployment {r : Deployment} :
    r ∈ (t.dropDeployment id server).2.deployments ↔
      r ∈ t.deployments ∧ ¬ (r.domainId = id ∧ r.server = server) := by
  simp only [dropDeployment, List.mem_filter, Bool.not_eq_true', Bool.eq_false_iff, ne_eq,
    isDeployment_iff]

theorem exists_of_mem_markOutdated {hash : String} {r : Deployment}
    (hr : r ∈ (t.markOutdated id hash).2.deployments) :
    ∃ s ∈ t.deployments, s.domainId = r.domainId ∧ s.position = r.position := by
  obtain ⟨s, hs, rfl⟩ := List.mem_map.1 hr
  refine ⟨s, hs, ?_⟩
  split <;> exact ⟨rfl, rfl⟩

/-- A row that is deployed after the marking was so before it, and it does not hold other settings
than those of the hash. -/
theorem mem_markOutdated {hash : String} {r : Deployment}
    (hr : r ∈ (t.markOutdated id hash).2.deployments) (hdeployed : r.status = .known .deployed) :
    r ∈ t.deployments ∧ (r.domainId = id → r.deployedHash = some hash) := by
  obtain ⟨s, hs, rfl⟩ := List.mem_map.1 hr
  split at hdeployed
  · cases hdeployed
  · rename_i hfresh
    refine ⟨by rwa [if_neg hfresh], fun hid => ?_⟩
    rw [if_neg hfresh] at hid ⊢
    simpa [isStale, hid, hdeployed] using hfresh

end

/-- Counting up past every position gives the least number from the start on that is past them. -/
theorem foldl_position_spec (rows : List Deployment) (start : Int) :
    (∀ r ∈ rows, r.position < rows.foldl (fun n r => max n (r.position + 1)) start) ∧
      start ≤ rows.foldl (fun n r => max n (r.position + 1)) start ∧
      ∀ bound : Int, start ≤ bound → (∀ r ∈ rows, r.position < bound) →
        rows.foldl (fun n r => max n (r.position + 1)) start ≤ bound := by
  induction rows generalizing start with
  | nil => simp
  | cons r rows ih =>
      obtain ⟨habove, hstart, hleast⟩ := ih (max start (r.position + 1))
      simp only [List.foldl_cons, List.forall_mem_cons]
      refine ⟨⟨by omega, habove⟩, by omega, fun bound hbound hrows => ?_⟩
      exact hleast bound (by omega) hrows.2

/-- The next position is behind all of a domain's, and no higher than it has to be. -/
theorem nextPosition_spec (t : Tables) (id : Uuid) :
    (∀ r ∈ t.rowsOf id, r.position < t.nextPosition id) ∧ 0 ≤ t.nextPosition id ∧
      ∀ bound : Int, 0 ≤ bound → (∀ r ∈ t.rowsOf id, r.position < bound) →
        t.nextPosition id ≤ bound :=
  foldl_position_spec (t.rowsOf id) 0

theorem position_putDeployment (hrows : t.deployments.Pairwise Deployment.Precedes)
    (status : DeploymentStatus) (hash error : Option String) {r : Deployment}
    (hr : r ∈ (t.putDeployment id server status hash error now).2.deployments) :
    (∃ s ∈ t.deployments, s.position = r.position) ∨ r.position = t.nextPosition id := by
  by_cases hsome : ∃ s ∈ t.deployments, isDeployment id server s = true
  · rw [deployments_putDeployment_of_mem _ _ _ hrows hsome] at hr
    obtain ⟨s, hs, rfl⟩ := List.mem_map.1 hr
    refine .inl ⟨s, hs, ?_⟩
    split <;> rfl
  · rw [deployments_putDeployment_of_not_mem _ _ _ hsome] at hr
    rcases List.mem_append.1 hr with hold | hnew
    · exact .inl ⟨r, hold, rfl⟩
    · obtain rfl := List.mem_singleton.1 hnew
      exact .inr rfl

section

variable (hrows : t.deployments.Pairwise Deployment.Precedes)

include hrows

/-- Rows that keep their places are ordered as before. -/
theorem ordered_map {change : Deployment → Deployment}
    (hchange : ∀ r, (change r).domainId = r.domainId ∧ (change r).server = r.server ∧
      (change r).position = r.position) :
    (t.deployments.map change).Pairwise Deployment.Precedes := by
  rw [List.pairwise_map]
  refine hrows.imp fun {a b} hab hid => ?_
  rw [(hchange a).1, (hchange b).1] at hid
  rw [(hchange a).2.1, (hchange b).2.1, (hchange a).2.2, (hchange b).2.2]
  exact hab hid

theorem ordered_putDeployment (status : DeploymentStatus) (hash error : Option String) :
    (t.putDeployment id server status hash error now).2.deployments.Pairwise
      Deployment.Precedes := by
  by_cases hsome : ∃ r ∈ t.deployments, isDeployment id server r = true
  · rw [deployments_putDeployment_of_mem _ _ _ hrows hsome]
    refine ordered_map hrows fun r => ?_
    split <;> exact ⟨rfl, rfl, rfl⟩
  · rw [deployments_putDeployment_of_not_mem _ _ _ hsome, List.pairwise_append]
    refine ⟨hrows, List.pairwise_singleton _ _, fun r hr new hnew hid => ?_⟩
    obtain rfl := List.mem_singleton.1 hnew
    refine ⟨fun hserver => hsome ⟨r, hr, isDeployment_iff.2 ⟨hid, hserver⟩⟩, ?_⟩
    exact (t.nextPosition_spec id).1 r (mem_rowsOf.2 ⟨hr, hid⟩)

theorem ordered_dropDeployment :
    (t.dropDeployment id server).2.deployments.Pairwise Deployment.Precedes :=
  hrows.filter _

theorem ordered_markOutdated (hash : String) :
    (t.markOutdated id hash).2.deployments.Pairwise Deployment.Precedes := by
  refine ordered_map hrows fun r => ?_
  split <;> exact ⟨rfl, rfl, rfl⟩

end

/-- The servers of a domain in the order of the table, each with the hash that it holds. -/
def holdings (t : Tables) (id : Uuid) : List (String × Option String) :=
  (t.rowsOf id).map fun r => (r.server, r.deployedHash)

section

variable {status : DeploymentStatus} {hash error : Option String} {other : Uuid}

theorem holdings_map {t' : Tables} {change : Deployment → Deployment}
    (swap : String × Option String → String × Option String)
    (hrows : t'.deployments = t.deployments.map change)
    (hdomain : ∀ r, (change r).domainId = r.domainId)
    (hswap : ∀ r ∈ t.rowsOf id, ((change r).server, (change r).deployedHash) =
      swap (r.server, r.deployedHash)) :
    t'.holdings id = (t.holdings id).map swap := by
  rw [holdings, holdings, rowsOf, hrows, List.filter_map, List.map_map, List.map_map]
  have hsame : ((fun r => r.domainId == id) ∘ change) = fun r : Deployment => r.domainId == id := by
    funext r
    rw [Function.comp_apply, hdomain]
  rw [hsame]
  exact List.map_congr_left hswap

theorem holdings_putDeployment_of_ne (hrows : t.deployments.Pairwise Deployment.Precedes)
    (hother : other ≠ id) :
    (t.putDeployment id server status hash error now).2.holdings other = t.holdings other := by
  by_cases hsome : ∃ r ∈ t.deployments, isDeployment id server r = true
  · rw [holdings_map (fun entry => entry)
      (deployments_putDeployment_of_mem _ _ _ hrows hsome) (fun r => by split <;> rfl), List.map_id']
    intro r hr
    have hskip : ¬ isDeployment id server r = true := by
      rw [isDeployment_iff, (mem_rowsOf.1 hr).2]
      exact fun h => hother h.1
    rw [if_neg hskip]
  · rw [holdings, rowsOf, deployments_putDeployment_of_not_mem _ _ _ hsome, List.filter_append]
    simp [holdings, rowsOf, firstAttempt, hother.symm]

theorem holdings_putDeployment_of_mem (hrows : t.deployments.Pairwise Deployment.Precedes)
    (hsome : ∃ r ∈ t.deployments, isDeployment id server r = true) :
    (t.putDeployment id server status hash error now).2.holdings id =
      (t.holdings id).map fun entry =>
        (entry.1, if entry.1 = server then hash.or entry.2 else entry.2) := by
  refine holdings_map _ (deployments_putDeployment_of_mem _ _ _ hrows hsome)
    (fun r => by split <;> rfl) fun r hr => ?_
  by_cases hserver : r.server = server
  · rw [if_pos (isDeployment_iff.2 ⟨(mem_rowsOf.1 hr).2, hserver⟩), if_pos hserver]
    rfl
  · rw [if_neg fun h => hserver (isDeployment_iff.1 h).2, if_neg hserver]

theorem holdings_putDeployment_of_not_mem
    (hnone : ¬ ∃ r ∈ t.deployments, isDeployment id server r = true) :
    (t.putDeployment id server status hash error now).2.holdings id =
      t.holdings id ++ [(server, hash)] := by
  rw [holdings, rowsOf, deployments_putDeployment_of_not_mem _ _ _ hnone, List.filter_append]
  simp [holdings, rowsOf, firstAttempt]

theorem holdings_dropDeployment :
    (t.dropDeployment id server).2.holdings id =
      (t.holdings id).filter fun entry => entry.1 ≠ server := by
  rw [holdings, holdings, rowsOf, rowsOf, dropDeployment, List.filter_map, List.filter_filter,
    List.filter_filter]
  congr 1
  apply List.filter_congr
  intro r _
  by_cases hid : (r.domainId == id) = true <;> simp [isDeployment, hid, beq_eq_decide]

theorem holdings_dropDeployment_of_ne (hother : other ≠ id) :
    (t.dropDeployment id server).2.holdings other = t.holdings other := by
  rw [holdings, holdings, rowsOf, rowsOf, dropDeployment, List.filter_filter]
  congr 1
  apply List.filter_congr
  intro r _
  by_cases hid : r.domainId = other <;> simp [isDeployment, hid, hother]

theorem holdings_markOutdated (hash : String) :
    (t.markOutdated id hash).2.holdings other = t.holdings other := by
  rw [holdings_map (fun entry => entry) rfl (fun r => by split <;> rfl), List.map_id']
  intro r _
  split <;> rfl

end

end Tables

end Mailroom
