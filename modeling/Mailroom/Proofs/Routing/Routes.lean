import Mathlib.Data.Prod.Lex
import Mathlib.Data.String.Basic
import Mailroom.Proofs.Access.Scopes
import Mailroom.Proofs.Delivery.Direct
import Mailroom.Proofs.Routing.Selection

/-!
The route of a sender.  Main statement: it leads to the servers that are deployed for the sender's
domain and known, in the order of their deployments; the one that is asked first is the preferred one
if that is among them, and else the one that the strategy chooses, and only then is anything counted.
-/

namespace Mailroom

open Program (Completes completes_pure)
open Service (completes_found_bind completes_of_bind completes_request_bind completes_store)

/-- What decides on the order of deployments: their places, and names between equal ones. -/
def Deployment.rank (row : Deployment) : Int ×ₗ String := toLex (row.position, row.server)

namespace Tables

theorem deployedBefore_iff {a b : Deployment} : deployedBefore a b = true ↔ a.rank ≤ b.rank := by
  simp [deployedBefore, Deployment.rank, Prod.Lex.toLex_le_toLex]

/-- The deployments of a domain stand in order. -/
theorem pairwise_deploymentsOf (t : Tables) (domain : Uuid) :
    (t.deploymentsOf domain).Pairwise fun a b => a.rank ≤ b.rank := by
  have htrans : ∀ a b c : Deployment, deployedBefore a b = true → deployedBefore b c = true →
      deployedBefore a c = true := by
    simp only [deployedBefore_iff]
    exact fun a b c => le_trans
  have htotal : ∀ a b : Deployment, (deployedBefore a b || deployedBefore b a) = true := by
    simp only [Bool.or_eq_true, deployedBefore_iff]
    exact fun a b => le_total a.rank b.rank
  exact (List.pairwise_mergeSort htrans htotal _).imp deployedBefore_iff.1

end Tables

namespace Router

variable {router : Router} {t : Tables} {d : Domain}

/-- Mail from a domain may go out through a deployment: it is one of the domain, its server holds the
settings, be they current or old, and the server is known. -/
def Admits (router : Router) (d : Domain) (row : Deployment) : Prop :=
  row.domainId = d.id ∧ (row.status = .known .deployed ∨ row.status = .known .outdated) ∧
    ∃ server ∈ router.registry.servers, server.name = row.server

instance (router : Router) (d : Domain) (row : Deployment) : Decidable (router.Admits d row) :=
  inferInstanceAs (Decidable (_ ∧ _ ∧ _))

/-- These are the servers that mail from a domain may go out through, in order. -/
def Lists (router : Router) (t : Tables) (d : Domain) (servers : List String) : Prop :=
  ∃ rows : List Deployment, rows.Perm (t.deployments.filter fun row => router.Admits d row) ∧
    (rows.Pairwise fun a b => a.rank ≤ b.rank) ∧ servers = rows.map Deployment.server

/-- Places and names leave no choice in the order of servers. -/
theorem Lists.unique {servers servers' : List String} (h : router.Lists t d servers)
    (h' : router.Lists t d servers') : servers = servers' := by
  obtain ⟨rows, hrows, horder, rfl⟩ := h
  obtain ⟨rows', hrows', horder', rfl⟩ := h'
  have hranks : rows.map Deployment.rank = rows'.map Deployment.rank :=
    ((hrows.trans hrows'.symm).map Deployment.rank).eq_of_pairwise
      (fun _ _ _ _ => le_antisymm) (List.pairwise_map.2 horder) (List.pairwise_map.2 horder')
  have hnames := congrArg (List.map fun rank => (ofLex rank).2) hranks
  rwa [List.map_map, List.map_map] at hnames

theorem admits_iff {row : Deployment} :
    router.Admits d row ↔ row.domainId = d.id ∧
      ((row.status.value?.map DeploymentStatus.isRoutable).getD false = true ∧
        router.registry.contains row.server = true) := by
  have hstatus : (row.status.value?.map DeploymentStatus.isRoutable).getD false = true ↔
      row.status = .known .deployed ∨ row.status = .known .outdated := by
    cases row.status with
    | known status => cases status <;> simp [Stored.value?, DeploymentStatus.isRoutable]
    | other text => simp [Stored.value?]
  rw [Admits, hstatus, Registry.contains, List.any_eq_true]
  simp only [beq_iff_eq]

/-- The servers that the router finds eligible are those. -/
theorem lists_eligible (router : Router) (t : Tables) (d : Domain) :
    router.Lists t d (router.eligible ⟨d, t.deploymentsOf d.id⟩) := by
  refine ⟨((t.deploymentsOf d.id).filter fun row =>
    (row.status.value?.map DeploymentStatus.isRoutable).getD false).filter
      fun row => router.registry.contains row.server, ?_, ?_, ?_⟩
  · have hrows : (t.deploymentsOf d.id).Perm
        (t.deployments.filter fun row => row.domainId == d.id) := List.mergeSort_perm _ _
    refine ((hrows.filter _).filter _).trans (List.Perm.of_eq ?_)
    rw [List.filter_filter, List.filter_filter]
    apply List.filter_congr
    intro row _
    rw [Bool.eq_iff_iff, decide_eq_true_eq, admits_iff]
    simp only [Bool.and_eq_true, beq_iff_eq]
    tauto
  · exact ((t.pairwise_deploymentsOf d.id).filter _).filter _
  · rw [eligible, DomainConfig.routable, List.filter_map]
    rfl

end Router

/-- A blank text is no address. -/
theorem Address.senderDomain?_of_blank {sender : String} (h : Text.trimmed sender = "") :
    Address.senderDomain? sender = none := by
  have htrim : Text.trim sender.toList = [] := by
    rw [Text.trimmed] at h
    simpa using congrArg String.toList h
  rw [senderDomain?, parse?, htrim]
  rfl

theorem Address.lowered_of_senderDomain? {sender domain : String}
    (h : Address.senderDomain? sender = some domain) : Text.lowered domain = domain := by
  obtain ⟨a, ha, rfl⟩ := Option.map_eq_some_iff.1 h
  rw [parse?] at ha
  split at ha
  · cases ha
  · dsimp only at ha
    split at ha
    · cases ha
    · obtain rfl := Option.some.inj ha
      exact Text.lowered_lowered _

namespace Router

variable {router : Router} {t : Tables} {sender domain : String}

/-- Why a sender has no route. -/
inductive IsUnroutable (router : Router) (t : Tables) (sender : String) : DispatchError → Prop where
  | unreadable (hsender : Address.senderDomain? sender = none) :
      IsUnroutable router t sender
        (.invalidRequest (if Text.trimmed sender = "" then "sender address is required"
          else "invalid sender address: " ++ sender))
  | unknown {domain : String} (hsender : Address.senderDomain? sender = some domain)
      (hdomain : ∀ d ∈ t.domains, d.name ≠ domain) :
      IsUnroutable router t sender (.domainNotFound domain)
  | unserved {domain : String} {d : Domain} (hsender : Address.senderDomain? sender = some domain)
      (hdomain : t.domains.find? (fun d => d.name == domain) = some d)
      (hservers : router.Lists t d []) :
      IsUnroutable router t sender (.noServersAvailable domain)

/-- How the server that is asked first is picked from those of a route, and what is counted for it. -/
structure Picks (router : Router) (before after : Selection) (preferred : Option String)
    (route : Route) : Prop where
  mem : route.primary ∈ route.servers
  of_preferred : ∀ name, preferred = some name → name ∈ route.servers →
    route.primary = name ∧ after = before
  of_strategy : (∀ name, preferred = some name → name ∉ route.servers) →
    ∃ place, before.select (router.strategy route.servers) route.domain route.servers =
      (some place, after) ∧ route.servers[place]? = some route.primary

/-- A route leads where it is to lead, and is begun as it is to be. -/
structure IsRoute (router : Router) (t : Tables) (before after : Selection) (sender : String)
    (preferred : Option String) (route : Route) : Prop where
  sender : Address.senderDomain? sender = some route.domain
  servers : ∃ d, t.domains.find? (fun d => d.name == route.domain) = some d ∧
    ∀ servers, router.Lists t d servers ↔ servers = route.servers
  picks : router.Picks before after preferred route

variable {around : Surroundings} {clock : Nat} {actor : Actor} {u v : Premises}
  {servers : List String} {preferred : Option String} {result : Except DispatchError Route}

theorem senderDomain_eq_ok_iff : senderDomain sender = .ok domain ↔
    Address.senderDomain? sender = some domain := by
  constructor
  · exact senderDomain?_of_senderDomain
  · intro hsender
    have hfull : Text.trimmed sender ≠ "" := fun hblank => by
      rw [Address.senderDomain?_of_blank hblank] at hsender
      cases hsender
    rw [senderDomain, if_neg hfull, hsender]

theorem senderDomain_of_none (h : Address.senderDomain? sender = none) :
    senderDomain sender = .error (.invalidRequest
      (if Text.trimmed sender = "" then "sender address is required"
        else "invalid sender address: " ++ sender)) := by
  rw [senderDomain, h]
  split
  · rfl
  · rfl

/-- The look-up of a sender's domain finds the row of that name. -/
theorem domainByName_eq (hlowered : Text.lowered domain = domain) :
    t.domainByName domain =
      (t.domains.find? fun d => d.name == domain).map fun d => ⟨d, t.deploymentsOf d.id⟩ := by
  rw [Tables.domainByName, hlowered]

theorem picks_of_completes_primary (hservers : servers ≠ []) {picked : Except DispatchError String}
    (hrun : (router.primary domain servers preferred).run.Completes
      (Premises.actsAt around clock actor) u picked v) :
    ∃ primary, picked = .ok primary ∧
      router.Picks u.selection v.selection preferred ⟨domain, primary, servers⟩ := by
  unfold primary at hrun
  split at hrun
  · rename_i name hname
    obtain ⟨hpreferred, hmem⟩ := Option.filter_eq_some_iff.1 hname
    obtain ⟨rfl, rfl⟩ := completes_pure.1 hrun
    have hin : name ∈ servers := by simpa using hmem
    refine ⟨name, rfl, hin, ?_, fun hnot => absurd hin (hnot name hpreferred)⟩
    intro other hother _
    exact ⟨Option.some.inj (hpreferred.symm.trans hother), rfl⟩
  · rename_i hnone
    obtain ⟨choice, w, hchoice, hrun⟩ := completes_request_bind.1 hrun
    obtain ⟨place, hplace, hlt⟩ :=
      u.selection.exists_select (router.strategy servers) domain hservers
    have hanswer : choice = some place := (Prod.mk.inj hchoice.2).1.trans hplace
    have hafter : w.selection = (u.selection.select (router.strategy servers) domain servers).2 :=
      (Prod.mk.inj (Prod.mk.inj hchoice.2).2).2
    obtain ⟨rfl, rfl⟩ := completes_pure.1 hrun
    have hchosen : servers.getD (choice.getD 0) "" = servers[place] := by simp [hanswer, hlt]
    rw [hchosen]
    refine ⟨_, rfl, List.getElem_mem hlt, ?_, fun _ => ⟨place, ?_, List.getElem?_eq_getElem hlt⟩⟩
    · intro name hpreferred hin
      rw [hpreferred, Option.filter_some_pos (by simpa using hin)] at hnone
      cases hnone
    · exact Prod.ext hplace hafter.symm

/-- Begin a route at one of its servers. -/
def setOut (router : Router) (domain : String) (servers : List String) (preferred : Option String) :
    Service DispatchError Route := do
  if servers.isEmpty then throw (.noServersAvailable domain)
  return ⟨domain, ← router.primary domain servers preferred, servers⟩

/-- A sender whose domain can be read is asked for in the store. -/
theorem route_of_senderDomain? (hsender : Address.senderDomain? sender = some domain) :
    router.route sender preferred = Service.store (.domainByName domain) >>= fun reply =>
      Service.found (.domainNotFound domain) reply >>= fun config =>
        router.setOut domain (router.eligible config) preferred := by
  rw [route, senderDomain_eq_ok_iff.2 hsender]
  rfl

theorem completes_setOut
    (hrun : (router.setOut domain servers preferred).run.Completes
      (Premises.actsAt around clock actor) u result v) :
    (servers = [] ∧ result = .error (.noServersAvailable domain) ∧ v.selection = u.selection) ∨
      ∃ primary, result = .ok ⟨domain, primary, servers⟩ ∧
        router.Picks u.selection v.selection preferred ⟨domain, primary, servers⟩ := by
  unfold setOut at hrun
  split at hrun
  · rename_i hempty
    obtain ⟨rfl, rfl⟩ := completes_pure.1 hrun
    exact .inl ⟨List.isEmpty_iff.1 hempty, rfl, rfl⟩
  · rename_i hsome
    have hservers : servers ≠ [] := by simpa using hsome
    rcases completes_of_bind hrun with ⟨primary, _, hprimary, hrest⟩ | ⟨e, hprimary, -⟩
    · obtain ⟨_, hpicked, hpicks⟩ := picks_of_completes_primary hservers hprimary
      obtain rfl := Except.ok.inj hpicked
      obtain ⟨rfl, rfl⟩ := completes_pure.1 hrest
      exact .inr ⟨_, rfl, hpicks⟩
    · obtain ⟨_, hpicked, -⟩ := picks_of_completes_primary hservers hprimary
      cases hpicked

/-- How a search for a route ends, and what has been counted then. -/
inductive Ends (router : Router) (around : Surroundings) (t : Tables) (before : Selection)
    (sender : String) (preferred : Option String) : Except DispatchError Route → Selection → Prop where
  | unroutable {e : DispatchError} (h : router.IsUnroutable t sender e) :
      Ends router around t before sender preferred (.error e) before
  | unanswered {domain : String} {failure : Failure}
      (h : around (.store (.domainByName domain)) (.error failure)) :
      Ends router around t before sender preferred (.error (.storage failure)) before
  | found {route : Route} {after : Selection}
      (h : router.IsRoute t before after sender preferred route) :
      Ends router around t before sender preferred (.ok route) after

theorem ends_of_found (hsender : Address.senderDomain? sender = some domain)
    (hrun : (Service.found (.domainNotFound domain) (t.domainByName domain) >>= fun config =>
      router.setOut domain (router.eligible config) preferred).run.Completes
        (Premises.actsAt around clock actor) u result v) :
    router.Ends around t u.selection sender preferred result v.selection := by
  rw [domainByName_eq (Address.lowered_of_senderDomain? hsender)] at hrun
  rcases completes_found_bind.1 hrun with ⟨config, hconfig, hrest⟩ | ⟨hnone, rfl, rfl⟩
  · obtain ⟨d, hd, rfl⟩ := Option.map_eq_some_iff.1 hconfig
    have hlists := router.lists_eligible t d
    rcases completes_setOut hrest with ⟨hempty, rfl, hsame⟩ | ⟨primary, rfl, hpicks⟩
    · rw [hempty] at hlists
      rw [hsame]
      exact .unroutable (.unserved hsender hd hlists)
    · have hservers := fun servers =>
        show router.Lists t d servers ↔ servers = router.eligible ⟨d, t.deploymentsOf d.id⟩ from
          ⟨fun h => h.unique hlists, fun h => h ▸ hlists⟩
      exact .found ⟨hsender, ⟨d, hd, hservers⟩, hpicks⟩
  · rw [Option.map_eq_none_iff, List.find?_eq_none] at hnone
    exact .unroutable (.unknown hsender fun d hd => by simpa using hnone d hd)

/-- Every search ends in one of these ways. -/
theorem ends_of_completes_route
    (hrun : (router.route sender preferred).run.Completes
      (Premises.actsAt around clock actor) u result v) :
    router.Ends around u.scene.tables u.selection sender preferred result v.selection := by
  cases hsender : Address.senderDomain? sender with
  | none =>
      rw [route, senderDomain_of_none hsender] at hrun
      obtain ⟨rfl, rfl⟩ := completes_pure.1 hrun
      exact .unroutable (.unreadable hsender)
  | some domain =>
      rw [route_of_senderDomain? hsender] at hrun
      obtain ⟨reply, w, hreply, hrest⟩ := Program.Completes.of_bind hrun
      obtain ⟨answer, hacts, rfl⟩ := completes_store.1 hreply
      have hselection : w.selection = u.selection := (Prod.mk.inj (Prod.mk.inj hacts.2).2).2
      rw [← hselection]
      cases answer with
      | error failure =>
          obtain ⟨rfl, rfl⟩ := completes_pure.1 hrest
          exact .unanswered hacts.1.1
      | ok found =>
          obtain ⟨now, hfound, -⟩ := Surroundings.acts_ok hacts.1
          obtain rfl : found = u.scene.tables.domainByName domain := hfound
          exact ends_of_found hsender hrest

/-- What is found is known. -/
theorem exists_of_find? {d : Domain} (h : t.domains.find? (fun d => d.name == domain) = some d) :
    ∃ d ∈ t.domains, d.name = domain :=
  ⟨d, List.mem_of_find?_eq_some h, by simpa using List.find?_some h⟩

/-- A sender has no route for one reason only. -/
theorem IsUnroutable.unique {e e' : DispatchError} (h : router.IsUnroutable t sender e)
    (h' : router.IsUnroutable t sender e') : e = e' := by
  cases h with
  | unreadable hnone =>
      cases h' with
      | unreadable _ => rfl
      | unknown hsome _ => cases hnone.symm.trans hsome
      | unserved hsome _ _ => cases hnone.symm.trans hsome
  | unknown hsome hunknown =>
      cases h' with
      | unreadable hnone => cases hnone.symm.trans hsome
      | unknown hsome' _ => rw [Option.some.inj (hsome.symm.trans hsome')]
      | unserved hsome' hfound _ =>
          obtain rfl := Option.some.inj (hsome.symm.trans hsome')
          obtain ⟨d, hd, hname⟩ := exists_of_find? hfound
          exact absurd hname (hunknown d hd)
  | unserved hsome hfound _ =>
      cases h' with
      | unreadable hnone => cases hnone.symm.trans hsome
      | unknown hsome' hunknown =>
          obtain rfl := Option.some.inj (hsome.symm.trans hsome')
          obtain ⟨d, hd, hname⟩ := exists_of_find? hfound
          exact absurd hname (hunknown d hd)
      | unserved hsome' _ _ => rw [Option.some.inj (hsome.symm.trans hsome')]

/-- A sender whose domain has servers has a route. -/
theorem not_isUnroutable_of_lists (hsender : Address.senderDomain? sender = some domain) {d : Domain}
    (hfound : t.domains.find? (fun d => d.name == domain) = some d)
    (hlists : router.Lists t d servers) (hservers : servers ≠ []) {e : DispatchError} :
    ¬ router.IsUnroutable t sender e := by
  intro hunroutable
  cases hunroutable with
  | unreadable hnone => cases hnone.symm.trans hsender
  | unknown hsome hunknown =>
      obtain rfl := Option.some.inj (hsender.symm.trans hsome)
      obtain ⟨d, hd, hname⟩ := exists_of_find? hfound
      exact hunknown d hd hname
  | unserved hsome hfound' hempty =>
      obtain rfl := Option.some.inj (hsender.symm.trans hsome)
      obtain rfl := Option.some.inj (hfound.symm.trans hfound')
      exact hservers (hlists.unique hempty)

theorem IsRoute.not_isUnroutable {before after : Selection} {route : Route} {e : DispatchError}
    (h : router.IsRoute t before after sender preferred route) :
    ¬ router.IsUnroutable t sender e := by
  obtain ⟨hsender, ⟨d, hfound, hservers⟩, hpicks⟩ := h
  exact not_isUnroutable_of_lists hsender hfound ((hservers _).2 rfl)
    (List.ne_nil_of_mem hpicks.mem)

/-- The domain of a sender and its servers are those of its route. -/
theorem IsRoute.domain_and_servers {before after : Selection} {route : Route}
    (h : router.IsRoute t before after sender preferred route)
    (hsender : Address.senderDomain? sender = some domain) {d : Domain}
    (hfound : t.domains.find? (fun d => d.name == domain) = some d)
    (hlists : router.Lists t d servers) : route.domain = domain ∧ route.servers = servers := by
  obtain ⟨hsender', ⟨d', hfound', hservers⟩, -⟩ := h
  have hdomain := Option.some.inj (hsender'.symm.trans hsender)
  rw [hdomain] at hfound'
  obtain rfl := Option.some.inj (hfound'.symm.trans hfound)
  exact ⟨hdomain, ((hservers servers).1 hlists).symm⟩

/-- Where the store answers, a search fails for the reasons why a sender has no route. -/
theorem Ends.error_iff {before after : Selection} {e : DispatchError}
    (h : router.Ends .reliable t before sender preferred result after) :
    result = .error e ↔ router.IsUnroutable t sender e := by
  cases h with
  | unroutable hunroutable =>
      constructor
      · rintro ⟨⟩
        exact hunroutable
      · intro hother
        rw [hunroutable.unique hother]
  | unanswered hfailed => cases hfailed
  | found hroute => exact ⟨nofun, fun h => absurd h hroute.not_isUnroutable⟩

/-- A sender's mail goes where its domain is deployed.  Whatever the tables, the known servers, the
settings and the counters, a search for a route ends, and it fails exactly for the reasons why a
sender has no route: its domain cannot be read or is unknown, or no server may take mail from it.
Even if the store fails, a search leaves the tables as they are, and counts nothing unless it leads to
a route; and a route leads to exactly the servers of the domain that hold its settings and are known,
in order, and begins at the preferred one if it is among them, and else, only then moving on, where
the strategy for them points. -/
theorem route_follows_deployments (router : Router) (sender : String) (preferred : Option String)
    (clock : Nat) (actor : Actor) (u : Premises) :
    (∃ result v, (router.route sender preferred).run.Completes
      (Premises.actsAt .reliable clock actor) u result v) ∧
    (∀ result v, (router.route sender preferred).run.Completes
        (Premises.actsAt .reliable clock actor) u result v →
      ∀ e, result = .error e ↔ router.IsUnroutable u.scene.tables sender e) ∧
    ∀ around result v, (router.route sender preferred).run.Completes
        (Premises.actsAt around clock actor) u result v →
      v.scene.tables = u.scene.tables ∧
      (∀ e, result = .error e → v.selection = u.selection) ∧
      ∀ route, result = .ok route →
        router.IsRoute u.scene.tables u.selection v.selection sender preferred route := by
  refine ⟨?_, ?_, ?_⟩
  · exact ⟨_, _, Premises.completes_reliable (c := Rehearsal.fair "waiting") (fun _ => rfl)
      actor clock _ u⟩
  · intro result v hrun e
    exact (ends_of_completes_route hrun).error_iff
  · intro around result v hrun
    have hscene : (router.route sender preferred).run.Completes (around.acts actor) u.scene result
        v.scene := hrun.image Premises.scene fun _ _ _ _ hacts => hacts.1
    refine ⟨((router.asks_route sender preferred).unmoved hscene).tables, ?_, ?_⟩
    · rintro e rfl
      have hends := ends_of_completes_route hrun
      generalize v.selection = after at hends ⊢
      cases hends with
      | unroutable _ => rfl
      | unanswered _ => rfl
    · rintro route rfl
      cases ends_of_completes_route hrun with
      | found hroute => exact hroute

end Router

namespace Rehearsal

/-- The domain is deployed on two known servers in one place; before them, it failed on one and is
deployed on one that is not known any more. -/
def scattered : Tables where
  domains := deployed.domains
  deployments :=
    [⟨⟨6⟩, ⟨4⟩, "south", .known .outdated, none, 1, none, none⟩,
      ⟨⟨7⟩, ⟨4⟩, "east", .known .failed, none, 0, none, none⟩,
      ⟨⟨5⟩, ⟨4⟩, "north", .known .deployed, none, 1, none, none⟩,
      ⟨⟨8⟩, ⟨4⟩, "west", .known .deployed, none, 0, none, none⟩]

def crossing : Router where
  registry := ⟨[⟨"south", "http://south.example", 2⟩, ⟨"north", "http://north.example", 1⟩,
    ⟨"east", "http://east.example", 1⟩]⟩
  settings := {}

/-- The first of two servers has had its turn. -/
def turned : Premises where
  scene := ⟨scattered, [], []⟩
  limiter := ⟨[]⟩
  selection := { Selection.initial with turns := [("here.example", 1)] }

end Rehearsal

namespace Router

open Rehearsal (crossing turned)

/-- The second server has its turn, unless the first one is preferred. -/
theorem south_in_turn :
    (∃ v, (crossing.route "News <news@HERE.example>" none).run.Completes
        (Premises.actsAt .reliable 0 .engine) turned
        (.ok ⟨"here.example", "south", ["north", "south"]⟩) v ∧
      v.scene.tables = turned.scene.tables ∧ v.selection.turnsOf "here.example" = 2) ∧
    ∃ v, (crossing.route "News <news@HERE.example>" (some "north")).run.Completes
        (Premises.actsAt .reliable 0 .engine) turned
        (.ok ⟨"here.example", "north", ["north", "south"]⟩) v ∧
      v.selection = turned.selection := by
  have hsender : Address.senderDomain? "News <news@HERE.example>" = some "here.example" := by
    decide +kernel
  have hfound : turned.scene.tables.domains.find? (fun d => d.name == "here.example") =
      turned.scene.tables.domains.head? := by
    decide +kernel
  have hlists : crossing.Lists turned.scene.tables (turned.scene.tables.domains.head (by decide))
      ["north", "south"] :=
    ⟨[⟨⟨5⟩, ⟨4⟩, "north", .known .deployed, none, 1, none, none⟩,
      ⟨⟨6⟩, ⟨4⟩, "south", .known .outdated, none, 1, none, none⟩], by decide, by decide, rfl⟩
  have hleads : ∀ preferred, ∃ route v,
      (crossing.route "News <news@HERE.example>" preferred).run.Completes
        (Premises.actsAt .reliable 0 .engine) turned (.ok route) v ∧
      v.scene.tables = turned.scene.tables ∧ route.domain = "here.example" ∧
      route.servers = ["north", "south"] ∧
      crossing.Picks turned.selection v.selection preferred route := by
    intro preferred
    obtain ⟨⟨result, v, hrun⟩, hfails, hends⟩ :=
      route_follows_deployments crossing "News <news@HERE.example>" preferred 0 .engine turned
    obtain ⟨htables, -, hroute⟩ := hends _ _ _ hrun
    cases result with
    | error e =>
        exact absurd ((hfails _ _ hrun e).1 rfl)
          (not_isUnroutable_of_lists hsender hfound hlists (by decide))
    | ok route =>
        obtain ⟨hdomain, hservers⟩ := (hroute route rfl).domain_and_servers hsender hfound hlists
        exact ⟨route, v, hrun, htables, hdomain, hservers, (hroute route rfl).picks⟩
  constructor
  · obtain ⟨⟨_, primary, _⟩, v, hrun, htables, rfl, rfl, hpicks⟩ := hleads none
    obtain ⟨place, hselect, hplace⟩ := hpicks.of_strategy nofun
    have hturn : turned.selection.select (crossing.strategy ["north", "south"]) "here.example"
        ["north", "south"] = (some 1, ⟨[("here.example", 2)], 0⟩) := by
      decide +kernel
    obtain ⟨hfirst, hselection⟩ := Prod.mk.inj (hturn.symm.trans hselect)
    obtain rfl := Option.some.inj hfirst
    obtain rfl : "south" = primary := Option.some.inj hplace
    refine ⟨v, hrun, htables, ?_⟩
    rw [← hselection]
    rfl
  · obtain ⟨⟨_, primary, _⟩, v, hrun, -, rfl, rfl, hpicks⟩ := hleads (some "north")
    obtain ⟨rfl, hselection⟩ := hpicks.of_preferred "north" rfl (List.mem_cons_self ..)
    exact ⟨v, hrun, hselection⟩

end Router

end Mailroom
