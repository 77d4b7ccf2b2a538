import Mailroom.Proofs.Deployment.Calls

/-!
Deployments after any number of calls, one after another.  What servers have answered says which
deployments there must be: a push adds one behind the others unless it is there, an accepted removal
takes it away, and an accepted push tells it which settings the server holds.  Main statement: the
table says exactly that, and whatever counts as deployed holds the settings of the day.
-/

namespace Mailroom.DomainSync

/-- What a server was told about a domain: its settings, with their hash if they were accepted, or
to forget it, which was accepted. -/
inductive Notice where
  | pushed (name server : String) (hash : Option String)
  | removed (name server : String)
deriving DecidableEq

def Deed.notice? : Deed → Option Notice
  | ⟨_, .mta server (.push spec), .ok ()⟩ => some (.pushed spec.name server (some spec.configHash))
  | ⟨_, .mta server (.push spec), .error _⟩ => some (.pushed spec.name server none)
  | ⟨_, .mta server (.remove name), .ok ()⟩ => some (.removed name server)
  | _ => none

/-- All that servers were told, the latest first. -/
def Site.notices (u : Site) : List Notice := u.history.filterMap Deed.notice?

/-- The servers that a domain was pushed to and not removed from since, in the order of the first
push. -/
def standing (name : String) : List Notice → List String
  | [] => []
  | .pushed d server _ :: earlier =>
      if d = name ∧ server ∉ standing name earlier then standing name earlier ++ [server]
      else standing name earlier
  | .removed d server :: earlier =>
      if d = name then (standing name earlier).filter (· ≠ server) else standing name earlier

/-- The hash of the settings of a domain that a server accepted last, if it accepted any since the
domain was removed from it. -/
def accepted (name server : String) : List Notice → Option String
  | [] => none
  | .pushed d target hash :: earlier =>
      if d = name ∧ target = server then hash.or (accepted name server earlier)
      else accepted name server earlier
  | .removed d target :: earlier =>
      if d = name ∧ target = server then none else accepted name server earlier

/-- The servers that a domain stands on, each with what it accepted last. -/
def ledger (name : String) (notices : List Notice) : List (String × Option String) :=
  (standing name notices).map fun server => (server, accepted name server notices)

section

variable {name server : String} {hash : Option String} {notices : List Notice}

/-- Only where a domain stands has anything been accepted. -/
theorem accepted_of_not_mem (h : server ∉ standing name notices) :
    accepted name server notices = none := by
  induction notices with
  | nil => rfl
  | cons notice earlier ih =>
      cases notice with
      | pushed d target hash =>
          rw [standing] at h
          have hearlier : server ∉ standing name earlier := by
            intro hmem
            split at h
            · exact h (List.mem_append_left _ hmem)
            · exact h hmem
          have hother : ¬ (d = name ∧ target = server) := by
            rintro ⟨rfl, rfl⟩
            simp [hearlier] at h
          rw [accepted, if_neg hother]
          exact ih hearlier
      | removed d target =>
          rw [standing] at h
          rw [accepted]
          split
          · rfl
          · rename_i hother
            apply ih
            intro hmem
            split at h
            · rename_i hname
              refine h (List.mem_filter.2 ⟨hmem, ?_⟩)
              simpa using fun hserver => hother ⟨hname, hserver.symm⟩
            · exact h hmem

theorem ledger_pushed_of_ne {d : String} (hd : d ≠ name) :
    ledger name (.pushed d server hash :: notices) = ledger name notices := by
  simp [ledger, standing, accepted, hd]

theorem ledger_removed_of_ne {d : String} (hd : d ≠ name) :
    ledger name (.removed d server :: notices) = ledger name notices := by
  simp [ledger, standing, accepted, hd]

/-- A push to a server where the domain stands leaves it in its place. -/
theorem ledger_pushed_of_mem (hmem : server ∈ standing name notices) :
    ledger name (.pushed name server hash :: notices) =
      (ledger name notices).map fun entry =>
        (entry.1, if entry.1 = server then hash.or entry.2 else entry.2) := by
  simp only [ledger, standing, hmem, not_true_eq_false, and_false, if_false, List.map_map]
  apply List.map_congr_left
  intro s hs
  by_cases hserver : s = server
  · simp [accepted, hserver]
  · simp [accepted, hserver, Ne.symm hserver]

/-- A push to another server puts it behind the others. -/
theorem ledger_pushed_of_not_mem (hnew : server ∉ standing name notices) :
    ledger name (.pushed name server hash :: notices) = ledger name notices ++ [(server, hash)] := by
  have hothers : ∀ s ∈ standing name notices, server ≠ s := by
    rintro s hs rfl
    exact hnew hs
  simp only [ledger, standing, hnew, not_false_eq_true, and_true, if_true, List.map_append,
    List.map_cons, List.map_nil]
  congr 1
  · apply List.map_congr_left
    intro s hs
    simp [accepted, hothers s hs]
  · simp [accepted, accepted_of_not_mem hnew]

theorem ledger_removed :
    ledger name (.removed name server :: notices) =
      (ledger name notices).filter fun entry => entry.1 ≠ server := by
  simp only [ledger, standing, if_true, List.filter_map]
  apply List.map_congr_left
  intro s hs
  have hserver : server ≠ s := by
    rintro rfl
    simpa using (List.mem_filter.1 hs).2
  simp [accepted, hserver]

theorem map_fst_ledger : (ledger name notices).map Prod.fst = standing name notices := by
  rw [ledger, List.map_map]
  exact List.map_id _

end

@[simp] theorem Site.notices_served {u : Site} {place : Nat} {now : Timestamp} (call : StoreCall) :
    (u.served place now call).notices = u.notices := rfl

/-- Domains that can be told apart by identifiers and by names in lower case, each with the hash of
its settings. -/
structure AreSettled (domains : List Domain) : Prop where
  ids_nodup : (domains.map Domain.id).Nodup
  names_nodup : (domains.map Domain.name).Nodup
  lowered : ∀ d ∈ domains, Text.lowered d.name = d.name
  hashed : ∀ d ∈ domains, d.configHash = d.computeHash

namespace AreSettled

variable {domains : List Domain} {d e : Domain}

/-- Different domains have different identifiers and names. -/
theorem eq_or_ne (h : AreSettled domains) (hd : d ∈ domains) (he : e ∈ domains) :
    e = d ∨ e.id ≠ d.id ∧ d.name ≠ e.name := by
  by_cases hsame : e = d
  · exact .inl hsame
  · refine .inr ⟨fun hid => hsame ?_, fun hname => hsame ?_⟩
    · exact List.inj_on_of_nodup_map h.ids_nodup he hd hid
    · exact List.inj_on_of_nodup_map h.names_nodup he hd hname.symm

theorem updateDomain {t : Tables} (h : AreSettled t.domains) (id : Uuid) (patch : DomainPatch)
    (now : Timestamp) : AreSettled (t.updateDomain id patch now).2.domains := by
  constructor
  case ids_nodup =>
    rw [Tables.map_updateDomain h.ids_nodup id fun _ => rfl]
    exact h.ids_nodup
  case names_nodup =>
    rw [Tables.map_updateDomain h.ids_nodup id fun _ => rfl]
    exact h.names_nodup
  case lowered =>
    rw [Tables.domains_updateDomain h.ids_nodup, List.forall_mem_map]
    intro d hd
    split <;> exact h.lowered d hd
  case hashed =>
    rw [Tables.domains_updateDomain h.ids_nodup, List.forall_mem_map]
    intro d hd
    split
    · exact Domain.configHash_rehashed _
    · exact h.hashed d hd

end AreSettled

/-- The deployments in the tables are those that servers have answered for: each of them belongs to
a domain, those of one domain are on different servers and stand in the order of their positions,
and what counts as deployed holds the settings of the day. -/
structure Site.IsFaithful (u : Site) : Prop where
  settled : AreSettled u.tables.domains
  owned : ∀ r ∈ u.tables.deployments, ∃ d ∈ u.tables.domains, d.id = r.domainId
  ordered : u.tables.deployments.Pairwise Deployment.Precedes
  bounded : ∀ r ∈ u.tables.deployments, 0 ≤ r.position ∧ r.position < u.notices.length
  recorded : ∀ d ∈ u.tables.domains, u.tables.holdings d.id = ledger d.name u.notices
  current : ∀ r ∈ u.tables.deployments, r.status = .known .deployed → u.tables.IsCurrent r

namespace Site.IsFaithful

variable {u v : Site} {place : Nat} {now : Timestamp} {d : Domain} {server : String}

theorem of_tables_eq (hu : u.IsFaithful) (htables : v.tables = u.tables)
    (hnotices : v.notices = u.notices) : v.IsFaithful := by
  constructor
  case settled => exact htables ▸ hu.settled
  case owned => exact htables ▸ hu.owned
  case ordered => exact htables ▸ hu.ordered
  case bounded => rw [htables, hnotices]; exact hu.bounded
  case recorded => rw [htables, hnotices]; exact hu.recorded
  case current => exact htables ▸ hu.current

theorem mem_standing_iff (hu : u.IsFaithful) (hd : d ∈ u.tables.domains) :
    server ∈ standing d.name u.notices ↔
      ∃ r ∈ u.tables.deployments, Tables.isDeployment d.id server r = true := by
  rw [← map_fst_ledger, ← hu.recorded d hd, Tables.holdings, List.map_map, List.mem_map]
  constructor
  · rintro ⟨r, hr, hserver⟩
    obtain ⟨hr, hid⟩ := Tables.mem_rowsOf.1 hr
    exact ⟨r, hr, Tables.isDeployment_iff.2 ⟨hid, hserver⟩⟩
  · rintro ⟨r, hr, htest⟩
    obtain ⟨hid, hserver⟩ := Tables.isDeployment_iff.1 htest
    exact ⟨r, Tables.mem_rowsOf.2 ⟨hr, hid⟩, hserver⟩

/-- An attempt at a deployment, of which the server's answer has been heard already. -/
theorem attempted (hu : u.IsFaithful) (hd : d ∈ u.tables.domains) {status : DeploymentStatus}
    {hash error : Option String} (htables : v.tables = u.tables)
    (hnotices : v.notices = .pushed d.name server hash :: u.notices)
    (hdeployed : status = .deployed → hash = some d.configHash) :
    (v.served place now (.putDeployment d.id server status hash error)).IsFaithful := by
  have hdomains : (v.served place now (.putDeployment d.id server status hash error)).tables.domains =
      u.tables.domains := by
    rw [← htables]
    exact Tables.domains_putDeployment status hash error
  have htables' : (v.served place now (.putDeployment d.id server status hash error)).tables =
      (u.tables.putDeployment d.id server status hash error now).2 := by
    rw [← htables]
    rfl
  constructor
  case settled => exact hdomains ▸ hu.settled
  case owned =>
    intro r hr
    rw [hdomains]
    rw [htables'] at hr
    rcases Tables.mem_putDeployment _ _ _ hr with hold | ⟨hid, -⟩
    · exact hu.owned r hold
    · exact ⟨d, hd, hid.symm⟩
  case ordered =>
    rw [htables']
    exact Tables.ordered_putDeployment hu.ordered _ _ _
  case bounded =>
    intro r hr
    rw [htables'] at hr
    rw [notices_served, hnotices, List.length_cons]
    -- a free position is never past the number of pushes, of which this one is new
    obtain ⟨-, hpos, hleast⟩ := u.tables.nextPosition_spec d.id
    rcases Tables.position_putDeployment hu.ordered _ _ _ hr with ⟨s, hs, hsame⟩ | hnext
    · have hbounds := hu.bounded s hs
      omega
    · have hbound := hleast u.notices.length (by omega) fun s hs =>
        (hu.bounded s (Tables.mem_rowsOf.1 hs).1).2
      omega
  case recorded =>
    intro e he
    rw [hdomains] at he
    rw [htables', notices_served, hnotices]
    rcases hu.settled.eq_or_ne hd he with rfl | ⟨hid, hname⟩
    · by_cases hmem : server ∈ standing e.name u.notices
      · rw [Tables.holdings_putDeployment_of_mem hu.ordered ((hu.mem_standing_iff he).1 hmem),
          ledger_pushed_of_mem hmem, hu.recorded e he]
      · rw [Tables.holdings_putDeployment_of_not_mem (mt (hu.mem_standing_iff he).2 hmem),
          ledger_pushed_of_not_mem hmem, hu.recorded e he]
    · rw [Tables.holdings_putDeployment_of_ne hu.ordered hid, ledger_pushed_of_ne hname,
        hu.recorded e he]
  case current =>
    intro r hr hstatus
    rw [Tables.IsCurrent, hdomains]
    rw [htables'] at hr
    rcases Tables.mem_putDeployment _ _ _ hr with hold | ⟨hid, -, hput, hhash⟩
    · exact hu.current r hold hstatus
    · have hsame : status = .deployed := Stored.known.inj (hput.symm.trans hstatus)
      exact ⟨d, hd, hid.symm, hhash _ (hdeployed hsame)⟩

/-- A removal that the server has accepted already. -/
theorem removed (hu : u.IsFaithful) (hd : d ∈ u.tables.domains) (htables : v.tables = u.tables)
    (hnotices : v.notices = .removed d.name server :: u.notices) :
    (v.served place now (.dropDeployment d.id server)).IsFaithful := by
  have hdomains : (v.served place now (.dropDeployment d.id server)).tables.domains =
      u.tables.domains := by
    rw [← htables]
    rfl
  have htables' : (v.served place now (.dropDeployment d.id server)).tables =
      (u.tables.dropDeployment d.id server).2 := by
    rw [← htables]
    rfl
  have hleft : ∀ r ∈ (v.served place now (.dropDeployment d.id server)).tables.deployments,
      r ∈ u.tables.deployments := by
    intro r hr
    rw [htables'] at hr
    exact (Tables.mem_dropDeployment.1 hr).1
  constructor
  case settled => exact hdomains ▸ hu.settled
  case owned =>
    intro r hr
    rw [hdomains]
    exact hu.owned r (hleft r hr)
  case ordered =>
    rw [htables']
    exact Tables.ordered_dropDeployment hu.ordered
  case bounded =>
    intro r hr
    have hbounds := hu.bounded r (hleft r hr)
    rw [notices_served, hnotices, List.length_cons]
    omega
  case recorded =>
    intro e he
    rw [hdomains] at he
    rw [htables', notices_served, hnotices]
    rcases hu.settled.eq_or_ne hd he with rfl | ⟨hid, hname⟩
    · rw [Tables.holdings_dropDeployment, ledger_removed, hu.recorded e he]
    · rw [Tables.holdings_dropDeployment_of_ne hid, ledger_removed_of_ne hname, hu.recorded e he]
  case current =>
    intro r hr hstatus
    rw [Tables.IsCurrent, hdomains]
    exact hu.current r (hleft r hr) hstatus

/-- Settings that were stored already, and are marked now. -/
theorem updated (hu : u.IsFaithful) (hd : d ∈ u.tables.domains) {patch : DomainPatch}
    {stored : Timestamp} (htables : v.tables = (u.tables.updateDomain d.id patch stored).2)
    (hnotices : v.notices = u.notices) :
    (v.served place now (.markOutdated d.id (patch.apply stored d).configHash)).IsFaithful := by
  have hdomains : (u.tables.updateDomain d.id patch stored).2.domains = _ :=
    Tables.domains_updateDomain hu.settled.ids_nodup d.id patch
  rw [← htables] at hdomains
  have hrows : v.tables.deployments = u.tables.deployments := by
    rw [htables, Tables.deployments_updateDomain]
  have hchanged : patch.apply stored d ∈ v.tables.domains := by
    rw [hdomains, List.mem_map]
    exact ⟨d, hd, by simp⟩
  have hkept : ∀ e ∈ u.tables.domains, e.id ≠ d.id → e ∈ v.tables.domains := by
    intro e he hid
    rw [hdomains, List.mem_map]
    exact ⟨e, he, by simp [hid]⟩
  constructor
  case settled =>
    change AreSettled v.tables.domains
    rw [htables]
    exact hu.settled.updateDomain _ _ _
  case owned =>
    intro r hr
    obtain ⟨s, hs, hid, -⟩ := Tables.exists_of_mem_markOutdated hr
    obtain ⟨e, he, heid⟩ := hu.owned s (hrows ▸ hs)
    rcases hu.settled.eq_or_ne hd he with rfl | ⟨hne, -⟩
    · exact ⟨_, hchanged, heid.trans hid⟩
    · exact ⟨e, hkept e he hne, heid.trans hid⟩
  case ordered => exact Tables.ordered_markOutdated (hrows ▸ hu.ordered) _
  case bounded =>
    intro r hr
    obtain ⟨s, hs, -, hposition⟩ := Tables.exists_of_mem_markOutdated hr
    rw [notices_served, hnotices, ← hposition]
    exact hu.bounded s (hrows ▸ hs)
  case recorded =>
    intro e he
    change (v.tables.markOutdated d.id _).2.holdings e.id = _
    change e ∈ v.tables.domains at he
    rw [hdomains, List.mem_map] at he
    obtain ⟨old, hold, rfl⟩ := he
    have hsame : (if old.id == d.id then patch.apply stored old else old).id = old.id ∧
        (if old.id == d.id then patch.apply stored old else old).name = old.name := by
      split <;> exact ⟨rfl, rfl⟩
    rw [Tables.holdings_markOutdated, hsame.1, hsame.2, notices_served, hnotices,
      ← hu.recorded old hold, Tables.holdings, Tables.holdings, Tables.rowsOf, Tables.rowsOf, hrows]
  case current =>
    -- what is still deployed after the mark has the new hash if it is of the domain
    intro r hr hstatus
    obtain ⟨hr, hfresh⟩ := Tables.mem_markOutdated hr hstatus
    obtain ⟨e, he, hid, hhash⟩ := hu.current r (hrows ▸ hr) hstatus
    rcases hu.settled.eq_or_ne hd he with rfl | ⟨hne, -⟩
    · exact ⟨_, hchanged, hid, hfresh hid.symm⟩
    · exact ⟨e, hkept e he hne, hid, hhash⟩

/-- What is known of the deployments survives a call. -/
theorem outcome (hu : u.IsFaithful) {c : Call} {result : Except DispatchError c.Reply}
    (hv : Outcome place u c result v) : v.IsFaithful := by
  cases hv with
  | unknownDomain hnone => exact hu.of_tables_eq rfl rfl
  | unknownServer hsome htarget hunknown => exact hu.of_tables_eq rfl rfl
  | deployed hsome hknown =>
      exact hu.attempted (Tables.domainByName_eq_some hsome).1 rfl rfl fun _ => rfl
  | failed hsome hknown =>
      exact hu.attempted (Tables.domainByName_eq_some hsome).1 rfl rfl nofun
  | undeployed hsome hknown => exact hu.removed (Tables.domainByName_eq_some hsome).1 rfl rfl
  | stayed hsome hknown => exact hu.of_tables_eq rfl rfl
  | @updated name patch config d stored marked hsome hd =>
      have hmem := (Tables.domainByName_eq_some hsome).1
      rw [Tables.updateDomain_of_mem hu.settled.ids_nodup hmem] at hd
      obtain rfl := Option.some.inj hd
      exact hu.updated hmem rfl rfl

end Site.IsFaithful

/-- How a call about a domain and a server that are known concludes: with a push that the server took
or declined and a row that says so; with a removal after which there is no such row, or a refused one
after which all is as before; or with other settings. -/
inductive Concludes (place : Nat) (u : Site) (d : Domain) :
    (c : Call) → Except DispatchError c.Reply → Site → Prop where
  | taken {registry : Registry} {name server : String} {row : Deployment} {v : Site}
      (hnotices : v.notices = .pushed d.name server (some d.configHash) :: u.notices)
      (hrow : row ∈ v.tables.deployments) (htest : Tables.isDeployment d.id server row = true)
      (hstatus : row.status = .known .deployed) (hhash : row.deployedHash = some d.configHash) :
      Concludes place u d (.deploy registry name server) (.ok row) v
  | declined {registry : Registry} {name server : String} {e : ClientError} {row : Deployment}
      {v : Site} (hnotices : v.notices = .pushed d.name server none :: u.notices)
      (hrow : row ∈ v.tables.deployments) (htest : Tables.isDeployment d.id server row = true)
      (hstatus : row.status = .known .failed) (herror : row.lastError = some e.message) :
      Concludes place u d (.deploy registry name server) (.error (.serverFailed server e)) v
  | removed {registry : Registry} {name server : String} {v : Site}
      (hnotices : v.notices = .removed d.name server :: u.notices)
      (hnone : ∀ row ∈ v.tables.deployments, Tables.isDeployment d.id server row = false) :
      Concludes place u d (.undeploy registry name server)
        (.ok (u.tables.deployments.any (Tables.isDeployment d.id server))) v
  | kept {registry : Registry} {name server : String} {e : ClientError} {v : Site}
      (hasked : v.history.head? = some ⟨place, .mta server (.remove d.name), .error e⟩)
      (hnotices : v.notices = u.notices) (htables : v.tables = u.tables) :
      Concludes place u d (.undeploy registry name server) (.error (.serverFailed server e)) v
  | changed {name : String} {patch : DomainPatch} {stored : Timestamp} {v : Site}
      (hnotices : v.notices = u.notices) (hdomain : patch.apply stored d ∈ v.tables.domains) :
      Concludes place u d (.update name patch) (.ok (patch.apply stored d)) v

theorem Site.IsFaithful.concludes {u v : Site} {place : Nat} {c : Call}
    {result : Except DispatchError c.Reply} (hu : u.IsFaithful) (hv : Outcome place u c result v)
    {config : DomainConfig} (hconfig : u.tables.domainByName c.name = some config)
    (hserver : ∀ registry server, c.target? = some (registry, server) →
      registry.contains server = true) : Concludes place u config.domain c result v := by
  cases hv with
  | unknownDomain hnone => cases hnone.symm.trans hconfig
  | unknownServer _ htarget hunknown => cases hunknown.symm.trans (hserver _ _ htarget)
  | deployed hsome _ =>
      obtain rfl := Option.some.inj (hsome.symm.trans hconfig)
      obtain ⟨hrow, htest, hstatus, -, hhash⟩ := Tables.putDeployment_spec _ _ _
      exact .taken rfl hrow htest hstatus (hhash _ rfl)
  | failed hsome _ =>
      obtain rfl := Option.some.inj (hsome.symm.trans hconfig)
      obtain ⟨hrow, htest, hstatus, herror, -⟩ := Tables.putDeployment_spec _ _ _
      exact .declined rfl hrow htest hstatus herror
  | undeployed hsome _ =>
      obtain rfl := Option.some.inj (hsome.symm.trans hconfig)
      refine .removed rfl fun row hrow => ?_
      have hother := (Tables.mem_dropDeployment.1 hrow).2
      rwa [← Tables.isDeployment_iff, Bool.not_eq_true] at hother
  | stayed hsome _ =>
      obtain rfl := Option.some.inj (hsome.symm.trans hconfig)
      exact .kept rfl rfl rfl
  | updated hsome hd =>
      obtain rfl := Option.some.inj (hsome.symm.trans hconfig)
      have hmem := (Tables.domainByName_eq_some hsome).1
      obtain ⟨hchanged, -⟩ := Tables.mem_of_updateDomain hu.settled.ids_nodup hd
      rw [Tables.updateDomain_of_mem hu.settled.ids_nodup hmem] at hd
      obtain rfl := Option.some.inj hd
      exact .changed rfl hchanged

/-- Domains as they are made, none of them deployed anywhere. -/
structure IsNew (t : Tables) : Prop where
  created : ∀ d ∈ t.domains, ∃ id name now, d = .create id name now
  ids_nodup : (t.domains.map Domain.id).Nodup
  names_nodup : (t.domains.map Domain.name).Nodup
  bare : t.deployments = []

/-- What a site may come to from some tables, when every call is begun after the one before it is
over. -/
inductive Sequential (t : Tables) : Site → Prop where
  | start : Sequential t ⟨t, []⟩
  | call {u v : Site} (place : Nat) {c : Call} {result : Except DispatchError c.Reply}
      (hu : Sequential t u) (hrun : c.program.Completes (Site.acts place) u result v) :
      Sequential t v

section

variable {t : Tables} {u v : Site} {place : Nat} {c : Call} {result : Except DispatchError c.Reply}

theorem IsNew.isFaithful (ht : IsNew t) : Site.IsFaithful ⟨t, []⟩ := by
  constructor
  case settled =>
    refine ⟨ht.ids_nodup, ht.names_nodup, fun d hd => ?_, fun d hd => ?_⟩
    · obtain ⟨id, name, now, rfl⟩ := ht.created d hd
      exact Text.lowered_lowered name
    · obtain ⟨id, name, now, rfl⟩ := ht.created d hd
      exact Domain.configHash_rehashed _
  case ordered => simp [ht.bare]
  case recorded =>
    intro d hd
    simp [Tables.holdings, Tables.rowsOf, ht.bare, Site.notices, ledger, standing]
  all_goals simp [ht.bare]

theorem Sequential.isFaithful (ht : IsNew t) (hu : Sequential t u) : u.IsFaithful := by
  induction hu with
  | start => exact ht.isFaithful
  | call place hu hrun ih => exact ih.outcome (outcome_of_completes hrun)

theorem Outcome.unknown_domain (hv : Outcome place u c result v)
    (hnone : u.tables.domainByName c.name = none) :
    result = .error (.domainNotFound c.name) ∧ v.tables = u.tables := by
  cases hv with
  | unknownDomain _ => exact ⟨rfl, rfl⟩
  | unknownServer hsome _ _ | deployed hsome _ | failed hsome _ | undeployed hsome _
  | stayed hsome _ | updated hsome _ => cases hsome.symm.trans hnone

theorem Outcome.unknown_server (hv : Outcome place u c result v) {registry : Registry}
    {server : String} (htarget : c.target? = some (registry, server))
    (hunknown : registry.contains server = false) :
    (∃ error, result = .error error) ∧ v.tables = u.tables := by
  cases hv with
  | unknownDomain _ | unknownServer _ _ _ | stayed _ _ => exact ⟨⟨_, rfl⟩, rfl⟩
  | deployed _ hknown | failed _ hknown | undeployed _ hknown =>
      obtain ⟨rfl, rfl⟩ := Prod.mk.inj (Option.some.inj htarget)
      cases hunknown.symm.trans hknown
  | updated _ _ => cases htarget

/-- A refusal changes nothing, except that a server's refusal of settings is recorded. -/
theorem Outcome.refused (hv : Outcome place u c result v) {error : DispatchError}
    (hrefused : result = .error error) (hc : ∀ registry name server, c ≠ .deploy registry name server) :
    v.tables = u.tables := by
  cases hv with
  | unknownDomain _ | unknownServer _ _ _ | stayed _ _ => rfl
  | deployed _ _ | undeployed _ _ | updated _ _ => cases hrefused
  | @failed registry name server _ _ _ _ _ => exact absurd rfl (hc registry name server)

/-- Whatever calls have been made one after another, the deployments are those that servers have
answered for, and a domain is found with its own in their order.  The next call may be refused for an
unknown domain or server, or its removal may be refused, and it leaves the tables as they were; or it
comes to its conclusion: a push or a removal that the server has answered, or other settings. -/
theorem Sequential.deployments_faithful (ht : IsNew t) (hu : Sequential t u) :
    u.IsFaithful ∧
      (∀ d ∈ u.tables.domains, u.tables.domainByName d.name = some ⟨d, u.tables.rowsOf d.id⟩) ∧
      ∀ (place : Nat) (c : Call) (result : Except DispatchError c.Reply) (v : Site),
        c.program.Completes (Site.acts place) u result v →
          (u.tables.domainByName c.name = none →
            result = .error (.domainNotFound c.name) ∧ v.tables = u.tables) ∧
          (∀ registry server, c.target? = some (registry, server) →
            registry.contains server = false → (∃ error, result = .error error) ∧
              v.tables = u.tables) ∧
          ((∀ registry name server, c ≠ .deploy registry name server) →
            (∃ error, result = .error error) → v.tables = u.tables) ∧
          ∀ config, u.tables.domainByName c.name = some config →
            (∀ registry server, c.target? = some (registry, server) →
              registry.contains server = true) → Concludes place u config.domain c result v := by
  have hfaithful := hu.isFaithful ht
  refine ⟨hfaithful, fun d hd => ?_, fun place c result v hrun => ?_⟩
  · rw [Tables.domainByName_name hfaithful.settled.names_nodup hd (hfaithful.settled.lowered d hd),
      Tables.deploymentsOf_eq_rowsOf hfaithful.ordered]
  · have hv := outcome_of_completes hrun
    refine ⟨hv.unknown_domain, fun registry server => hv.unknown_server, ?_,
      fun config => hfaithful.concludes hv⟩
    rintro hc ⟨error, hrefused⟩
    exact hv.refused hrefused hc

end

namespace Trial

theorem isNew_tables : IsNew tables where
  created := by
    intro d hd
    obtain rfl := List.mem_singleton.1 hd
    exact ⟨_, _, _, rfl⟩
  ids_nodup := List.nodup_singleton _
  names_nodup := List.nodup_singleton _
  bare := rfl

def both : Registry :=
  ⟨[⟨"north", "http://north.example", 1⟩, ⟨"south", "http://south.example", 1⟩]⟩

def push (server : String) : Call := .deploy both "here.example" server

def withdrawal : Call := .undeploy both "here.example" "north"

/-- Calls with the circumstances in which each of them is made. -/
def run (u : Site) : Nat → List (Circumstances × Call) → Site
  | _, [] => u
  | place, (c, call) :: rest => run (call.program.alone (Site.respond c place) u).2 (place + 1) rest

theorem sequential_run {t : Tables} {u : Site} {calls : List (Circumstances × Call)}
    (hu : Sequential t u) (hfailure : ∀ c ∈ calls.map Prod.fst, ∀ call, c.failure? call = none)
    (place : Nat) : Sequential t (run u place calls) := by
  induction calls generalizing u place with
  | nil => exact hu
  | cons first rest ih =>
      obtain ⟨c, call⟩ := first
      obtain ⟨hfirst, hrest⟩ := List.forall_mem_cons.1 hfailure
      exact ih (hu.call place (Site.completes_respond hfirst place call u)) hrest (place + 1)

/-- Both servers took the settings, and the first one was to take them again and refused. -/
def twice : Site :=
  run ⟨tables, []⟩ 0 [(fair, push "north"), (fair, push "south"), (refusing, push "north")]

/-- The domain was then removed from the first one. -/
def withdrawn : Site := run twice 3 [(fair, withdrawal)]

/-- It was to take the settings anew and refused. -/
def replaced : Site := run withdrawn 4 [(refusing, push "north")]

theorem sequential_twice : Sequential tables twice :=
  sequential_run .start (by simp [fair, refusing, Rehearsal.fair]) 0

theorem sequential_replaced : Sequential tables replaced :=
  sequential_run (sequential_run sequential_twice (by simp [fair, Rehearsal.fair]) 3)
    (by simp [refusing]) 4

theorem notices_twice :
    twice.notices = [.pushed domain.name "north" none,
      .pushed domain.name "south" (some domain.configHash),
      .pushed domain.name "north" (some domain.configHash)] := rfl

theorem notices_replaced :
    replaced.notices = .pushed domain.name "north" none :: .removed domain.name "north" ::
      twice.notices := rfl

end Trial

open Trial in
/-- A deployment that failed the second time keeps its place, and what the server accepted the first
time.  Removed and pushed anew, it stands behind the other one and has nothing that was accepted. -/
theorem Trial.redeployed_behind :
    IsNew tables ∧
      (Sequential tables twice ∧ domain ∈ twice.tables.domains ∧
        twice.tables.deployments.map Deployment.status = [.known .failed, .known .deployed] ∧
        twice.tables.holdings domain.id =
          [("north", some domain.configHash), ("south", some domain.configHash)]) ∧
      (∃ removed, withdrawal.program.Completes (Site.acts 3) twice (.ok removed) withdrawn ∧
        Concludes 3 twice domain withdrawal (.ok removed) withdrawn) ∧
      Sequential tables replaced ∧
        replaced.tables.holdings domain.id =
          [("south", some domain.configHash), ("north", none)] := by
  have htwice : domain ∈ twice.tables.domains := List.mem_singleton.2 rfl
  have hreplaced : domain ∈ replaced.tables.domains := List.mem_singleton.2 rfl
  obtain ⟨hfirst, hlookup, hcalls⟩ := Sequential.deployments_faithful isNew_tables sequential_twice
  obtain ⟨hlast, -, -⟩ := Sequential.deployments_faithful isNew_tables sequential_replaced
  refine ⟨isNew_tables, ⟨sequential_twice, htwice, rfl, ?_⟩, ⟨true, ?_⟩, sequential_replaced, ?_⟩
  · rw [hfirst.recorded domain htwice, notices_twice]
    rfl
  · have hrun : withdrawal.program.Completes (Site.acts 3) twice (.ok true) withdrawn :=
      Site.completes_respond (c := fair) (fun _ => rfl) 3 withdrawal twice
    obtain ⟨-, -, -, hconcludes⟩ := hcalls 3 withdrawal _ _ hrun
    refine ⟨hrun, hconcludes _ (hlookup domain htwice) ?_⟩
    intro registry server htarget
    obtain ⟨rfl, rfl⟩ := Prod.mk.inj (Option.some.inj htarget)
    rfl
  · rw [hlast.recorded domain hreplaced, notices_replaced, notices_twice]
    rfl

end Mailroom.DomainSync
