import Mailroom.Proofs.Routing.Proportion
import Mailroom.Proofs.Routing.Routes

/-!
Domains that choose by weight share one counter.  Main statement: as long as the searches for other
routes leave the counter of the weights where a domain's own searches left it, up to rounds of the
domain's total weight, every server of the domain that has a weight comes first within so many of its
routes; and another domain's searches may well keep it from that.
-/

namespace Mailroom

/-- A search for a sender's route without a preference: the tables that were searched, the counters
before it and after it, and its result. -/
structure Search where
  sender : String
  tables : Tables
  before : Selection
  after : Selection
  result : Except DispatchError Route

namespace Search

variable {router : Router} {domain : String} {servers : List String} {x : Search}

/-- A router makes a search, in whatever surroundings. -/
def IsMadeBy (router : Router) (x : Search) : Prop :=
  ∃ around clock actor u v, (router.route x.sender none).run.Completes
      (Premises.actsAt around clock actor) u x.result v ∧
    u.scene.tables = x.tables ∧ u.selection = x.before ∧ v.selection = x.after

def leadsFrom (domain : String) (x : Search) : Bool :=
  match x.result with
  | .ok route => route.domain == domain
  | .error _ => false

/-- The server that comes first on the route that was found. -/
def primary? (x : Search) : Option String := x.result.toOption.map Route.primary

/-- Mail from a domain may go out through these servers while it is searched for a route. -/
def Offers (router : Router) (domain : String) (servers : List String) (x : Search) : Prop :=
  ∃ d, x.tables.domains.find? (fun d => d.name == domain) = some d ∧
    router.Lists x.tables d servers

theorem ends (hx : x.IsMadeBy router) :
    ∃ around, router.Ends around x.tables x.before x.sender none x.result x.after := by
  obtain ⟨around, clock, actor, u, v, hrun, htables, hbefore, hafter⟩ := hx
  refine ⟨around, ?_⟩
  rw [← htables, ← hbefore, ← hafter]
  exact Router.ends_of_completes_route hrun

theorem isRoute_of_leadsFrom (hx : x.IsMadeBy router) (hleads : x.leadsFrom domain = true) :
    ∃ route, x.result = .ok route ∧ route.domain = domain ∧
      router.IsRoute x.tables x.before x.after x.sender none route := by
  obtain ⟨around, hends⟩ := x.ends hx
  obtain ⟨sender, tables, before, after, result⟩ := x
  cases hends with
  | unroutable _ => cases hleads
  | unanswered _ => cases hleads
  | found hroute => exact ⟨_, rfl, by simpa [leadsFrom] using hleads, hroute⟩

/-- A search that leads to servers among which the strategy chooses. -/
theorem exists_select (hx : x.IsMadeBy router) (hleads : x.leadsFrom domain = true)
    (hoffers : x.Offers router domain servers) :
    ∃ place, x.before.select (router.strategy servers) domain servers = (some place, x.after) ∧
      x.primary? = servers[place]? := by
  obtain ⟨route, hresult, rfl, hroute⟩ := isRoute_of_leadsFrom hx hleads
  obtain ⟨d, hfound, hlists⟩ := hoffers
  obtain ⟨-, rfl⟩ := hroute.domain_and_servers hroute.sender hfound hlists
  obtain ⟨place, hselect, hplace⟩ := hroute.picks.of_strategy nofun
  exact ⟨place, hselect, by rw [hplace, primary?, hresult]; rfl⟩

end Search

namespace Router

variable {router : Router} {domain : String} {servers : List String} {x y : Search}
  {searches stretch : List Search}

/-- A router makes searches one after another: between two of them the tables may change, and the
counters stay as they are. -/
structure Makes (router : Router) (searches : List Search) : Prop where
  each : ∀ x ∈ searches, x.IsMadeBy router
  inTurn : searches.IsChain fun x y => y.before = x.after

def weights (router : Router) (servers : List String) : List Nat :=
  servers.map router.registry.weight

theorem length_weights (router : Router) (servers : List String) :
    (router.weights servers).length = servers.length := List.length_map _

theorem weightsFor_weights (router : Router) (servers : List String) :
    Selection.weightsFor (router.weights servers) servers.length = router.weights servers := by
  rw [← router.length_weights servers, Selection.weightsFor_length]

theorem strategy_of_weighted (hweighted : router.settings.strategy = .weighted) :
    router.strategy servers = .weighted (router.weights servers) := by
  rw [strategy, hweighted]
  rfl

/-- Only a search that leads to two servers or more, with weights that are not all zero, moves the
counter of the weights. -/
theorem point_of_isMadeBy (hweighted : router.settings.strategy = .weighted)
    (hx : x.IsMadeBy router)
    (hidle : ∀ route, x.result = .ok route → 2 ≤ route.servers.length →
      (router.weights route.servers).sum = 0) : x.after.point = x.before.point := by
  obtain ⟨around, hends⟩ := x.ends hx
  obtain ⟨sender, tables, before, after, result⟩ := x
  cases hends with
  | unroutable _ => rfl
  | unanswered _ => rfl
  | @found route _ hroute =>
      obtain ⟨place, hselect, -⟩ := hroute.picks.of_strategy nofun
      have hafter := congrArg Prod.snd hselect
      have hmem := List.ne_nil_of_mem hroute.picks.mem
      by_cases hmany : 2 ≤ route.servers.length
      · have hzero := hidle route rfl hmany
        rw [← router.weightsFor_weights] at hzero
        rw [strategy_of_weighted hweighted, Selection.select_weighted hmany,
          Selection.byWeight_of_zero hzero] at hafter
        exact congrArg Selection.point hafter.symm
      · obtain ⟨server, hsingle⟩ := List.length_eq_one_iff.1
          (Nat.le_antisymm (Nat.le_of_not_lt hmany) (List.length_pos_iff.2 hmem))
        rw [hsingle] at hafter
        exact congrArg Selection.point hafter.symm

/-- Among two servers or more the counter points at the bucket of the one that comes first, and it
is moved on to the next point. -/
theorem first_of_leadsFrom (hweighted : router.settings.strategy = .weighted)
    (hx : x.IsMadeBy router) (hleads : x.leadsFrom domain = true)
    (hoffers : x.Offers router domain servers) (hmany : 2 ≤ servers.length)
    (hpos : 0 < (router.weights servers).sum) (hfits : (router.weights servers).sum < 2 ^ 64) :
    x.primary? = (bucketOf (router.weights servers)
        (x.before.point.toNat % (router.weights servers).sum)).bind (servers[·]?) ∧
      x.after.point.toNat = (x.before.point.toNat + 1) % (router.weights servers).sum := by
  obtain ⟨place, hselect, hprimary⟩ := x.exists_select hx hleads hoffers
  rw [← router.weightsFor_weights servers] at hpos hfits ⊢
  obtain ⟨hplace, hpoint⟩ := Selection.choose_of_weighs (s := x.before)
    (c := ⟨.weighted (router.weights servers), domain, servers⟩) ⟨rfl, rfl⟩ hmany hpos hfits
  rw [Selection.choose, ← strategy_of_weighted hweighted, hselect] at hplace hpoint
  exact ⟨by rw [hprimary, ← hplace, Option.bind_some], hpoint⟩

/-- Between two searches the counter of the weights was left where it was, up to rounds of a total. -/
def Undisturbed (total : Nat) (x y : Search) : Prop :=
  y.before.point.toNat % total = x.after.point.toNat % total

instance (total : Nat) (x y : Search) : Decidable (Undisturbed total x y) :=
  inferInstanceAs (Decidable (_ = _))

/-- Undisturbed searches go through the points one by one, and round. -/
theorem point_of_getElem? {total : Nat} (hrow : (x :: stretch).IsChain (Undisturbed total))
    (hnext : ∀ y ∈ x :: stretch, y.after.point.toNat = (y.before.point.toNat + 1) % total)
    {j : Nat} (hy : (x :: stretch)[j]? = some y) :
    y.before.point.toNat % total = (x.before.point.toNat + j) % total := by
  induction stretch generalizing x j with
  | nil =>
      obtain ⟨hj, rfl⟩ := List.getElem?_eq_some_iff.1 hy
      obtain rfl : j = 0 := by simpa using hj
      rfl
  | cons z rest ih =>
      obtain ⟨hundisturbed, hrow⟩ := List.isChain_cons_cons.1 hrow
      obtain ⟨hafter, hrest⟩ := List.forall_mem_cons.1 hnext
      cases j with
      | zero =>
          obtain rfl : x = y := Option.some.inj hy
          rfl
      | succ j =>
          rw [ih hrow hrest hy, Nat.add_mod, hundisturbed, hafter, Nat.mod_mod, ← Nat.add_mod,
            Nat.add_assoc, Nat.add_comm 1 j]

/-- As many undisturbed searches as all weights together come upon the bucket of every server that
has a weight. -/
theorem exists_first_of_undisturbed (hpos : 0 < (router.weights servers).sum)
    (hrow : stretch.IsChain (Undisturbed (router.weights servers).sum))
    (hlength : stretch.length = (router.weights servers).sum)
    (hfirst : ∀ x ∈ stretch, x.primary? = (bucketOf (router.weights servers)
        (x.before.point.toNat % (router.weights servers).sum)).bind (servers[·]?) ∧
      x.after.point.toNat = (x.before.point.toNat + 1) % (router.weights servers).sum)
    {server : String} (hserver : server ∈ servers) (hweight : 0 < router.registry.weight server) :
    ∃ x ∈ stretch, x.primary? = some server := by
  obtain ⟨place, hplace, rfl⟩ := List.getElem_of_mem hserver
  have hwidth : place < (router.weights servers).length := by rwa [length_weights]
  cases stretch with
  | nil => exact absurd hlength (Nat.ne_of_lt hpos)
  | cons first rest =>
      have hcount := count_bucketOf_mod hwidth first.before.point.toNat
      have hsome : (router.weights servers)[place] ≠ 0 := by
        simpa [weights] using Nat.ne_of_gt hweight
      obtain ⟨j, hj, hbucket⟩ := Nat.count_ne_iff_exists.1 (hcount ▸ hsome)
      rw [← hlength] at hj
      refine ⟨_, List.getElem_mem hj, ?_⟩
      rw [(hfirst _ (List.getElem_mem hj)).1,
        point_of_getElem? hrow (fun y hy => (hfirst y hy).2) (List.getElem?_eq_getElem hj),
        hbucket, Option.bind_some, List.getElem?_eq_getElem hplace]

/-- A server that has no other one beside it comes first on every route. -/
theorem primary?_of_single (hx : x.IsMadeBy router) (hleads : x.leadsFrom domain = true)
    {server : String} (hoffers : x.Offers router domain [server]) : x.primary? = some server := by
  obtain ⟨place, hselect, hprimary⟩ := x.exists_select hx hleads hoffers
  obtain rfl : 0 = place := Option.some.inj (congrArg Prod.fst hselect)
  exact hprimary

/-- The searches of a router that chooses by weight, as they concern a domain whose servers stay the
same.  Searches that fail, or lead to fewer than two servers or to weights that are all zero, leave
the counter of the weights alone.  In as many successive routes from the domain as its weights add up
to, between any two of which the other searches left the counter where it was, up to rounds of that
sum, every server of the domain that has a weight comes first. -/
theorem weights_honoured_if_undisturbed (hweighted : router.settings.strategy = .weighted)
    (hmade : router.Makes searches)
    (hoffers : ∀ x ∈ searches, x.leadsFrom domain = true → x.Offers router domain servers)
    (hpos : 0 < (router.weights servers).sum) (hfits : (router.weights servers).sum < 2 ^ 64) :
    (∀ x ∈ searches, (∀ route, x.result = .ok route → 2 ≤ route.servers.length →
      (router.weights route.servers).sum = 0) → x.after.point = x.before.point) ∧
    ∀ stretch, stretch <:+: searches.filter (Search.leadsFrom domain) →
      stretch.length = (router.weights servers).sum →
      stretch.IsChain (Undisturbed (router.weights servers).sum) →
        ∀ server ∈ servers, 0 < router.registry.weight server →
          ∃ x ∈ stretch, x.primary? = some server := by
  refine ⟨fun x hx => point_of_isMadeBy hweighted (hmade.each x hx), ?_⟩
  intro stretch hstretch hlength hrow server hserver hweight
  have hall : ∀ x ∈ stretch, x.IsMadeBy router ∧ x.leadsFrom domain = true ∧
      x.Offers router domain servers := by
    intro x hx
    obtain ⟨hmem, hleads⟩ := List.mem_filter.1 (hstretch.subset hx)
    exact ⟨hmade.each x hmem, hleads, hoffers x hmem hleads⟩
  by_cases hmany : 2 ≤ servers.length
  · apply exists_first_of_undisturbed hpos hrow hlength _ hserver hweight
    intro x hx
    obtain ⟨hmade, hleads, hoffers⟩ := hall x hx
    exact first_of_leadsFrom hweighted hmade hleads hoffers hmany hpos hfits
  · obtain ⟨only, rfl⟩ := List.length_eq_one_iff.1
      (Nat.le_antisymm (Nat.le_of_not_lt hmany) (List.length_pos_of_mem hserver))
    obtain rfl := List.mem_singleton.1 hserver
    obtain ⟨x, hx⟩ := List.exists_mem_of_length_pos (hlength ▸ hpos)
    obtain ⟨hmade, hleads, hoffers⟩ := hall x hx
    exact ⟨x, hx, primary?_of_single hmade hleads hoffers⟩

end Router

/-- The search for the route of a sender whose domain has these servers, as it turns out. -/
def Router.searched (router : Router) (t : Tables) (before : Selection) (sender domain : String)
    (servers : List String) : Search :=
  let (place, after) := before.select (router.strategy servers) domain servers
  ⟨sender, t, before, after, .ok ⟨domain, servers.getD (place.getD 0) "", servers⟩⟩

theorem Router.isMadeBy_searched {router : Router} {t : Tables} {before : Selection}
    {sender domain : String} {servers : List String} {d : Domain}
    (hsender : Address.senderDomain? sender = some domain)
    (hfound : t.domains.find? (fun d => d.name == domain) = some d)
    (hlists : router.Lists t d servers) (hservers : servers ≠ []) :
    (router.searched t before sender domain servers).IsMadeBy router := by
  let u : Premises := ⟨⟨t, [], []⟩, ⟨[]⟩, before⟩
  have hrun := Premises.completes_reliable (c := Rehearsal.fair "waiting") (fun _ => rfl) .engine 0
    (router.route sender none).run u
  generalize ((router.route sender none).run.alone _ u).1 = result at hrun
  generalize ((router.route sender none).run.alone _ u).2 = v at hrun
  have hends := Router.ends_of_completes_route hrun
  generalize hafter : v.selection = after at hends
  cases hends with
  | unroutable hunroutable =>
      exact absurd hunroutable (Router.not_isUnroutable_of_lists hsender hfound hlists hservers)
  | unanswered hfailed => cases hfailed
  | @found route _ hroute =>
      obtain ⟨hdomain, hsame⟩ := hroute.domain_and_servers hsender hfound hlists
      obtain ⟨place, hselect, hplace⟩ := hroute.picks.of_strategy nofun
      rw [hdomain, hsame] at hselect
      rw [hsame] at hplace
      change before.select _ _ _ = _ at hselect
      have hroute : route = ⟨domain, servers.getD place "", servers⟩ := by
        rw [List.getD_eq_getElem?_getD, hplace, ← hdomain, ← hsame]
        rfl
      refine ⟨.reliable, 0, .engine, u, v, ?_, rfl, rfl, ?_⟩
      · simpa only [Router.searched, hselect, Option.getD_some, hroute] using hrun
      · simpa only [Router.searched, hselect] using hafter

namespace Router

/-- A domain is searched for by one of its senders, and has these servers. -/
structure Query where
  sender : String
  domain : String
  servers : List String

def Query.IsServed (q : Query) (router : Router) (t : Tables) : Prop :=
  Address.senderDomain? q.sender = some q.domain ∧ q.servers ≠ [] ∧
    ∃ d, t.domains.find? (fun d => d.name == q.domain) = some d ∧ router.Lists t d q.servers

variable {router : Router} {t : Tables} {before : Selection} {q : Query} {queries : List Query}

/-- Searches one after another in tables that stay the same. -/
def searchedInTurn (router : Router) (t : Tables) : Selection → List Query → List Search
  | _, [] => []
  | before, q :: rest =>
      let x := router.searched t before q.sender q.domain q.servers
      x :: router.searchedInTurn t x.after rest

theorem before_of_head (router : Router) (t : Tables) (before : Selection) (queries : List Query) :
    ∀ x ∈ (router.searchedInTurn t before queries).head?, x.before = before := by
  cases queries with
  | nil => simp [searchedInTurn]
  | cons q rest =>
      intro x hx
      obtain rfl := Option.some.inj hx
      rfl

theorem makes_searchedInTurn (hserved : ∀ q ∈ queries, q.IsServed router t) :
    router.Makes (router.searchedInTurn t before queries) := by
  induction queries generalizing before with
  | nil => exact ⟨by simp [searchedInTurn], .nil⟩
  | cons q rest ih =>
      obtain ⟨⟨hsender, hservers, d, hfound, hlists⟩, hrest⟩ := List.forall_mem_cons.1 hserved
      let x := router.searched t before q.sender q.domain q.servers
      obtain ⟨heach, hinTurn⟩ : router.Makes (router.searchedInTurn t x.after rest) := ih hrest
      refine ⟨List.forall_mem_cons.2 ⟨isMadeBy_searched hsender hfound hlists hservers, heach⟩, ?_⟩
      exact List.isChain_cons.2 ⟨router.before_of_head t _ rest, hinTurn⟩

theorem offers_searchedInTurn (hserved : ∀ q ∈ queries, q.IsServed router t) {domain : String}
    {servers : List String}
    (hsame : ∀ q ∈ queries, q.domain = domain → q.servers = servers) :
    ∀ x ∈ router.searchedInTurn t before queries, x.leadsFrom domain = true →
      x.Offers router domain servers := by
  induction queries generalizing before with
  | nil => simp [searchedInTurn]
  | cons q rest ih =>
      obtain ⟨⟨-, -, hoffers⟩, hrest⟩ := List.forall_mem_cons.1 hserved
      obtain ⟨hfirst, hsame⟩ := List.forall_mem_cons.1 hsame
      refine List.forall_mem_cons.2 ⟨fun hleads => ?_, ih hrest hsame⟩
      obtain rfl : q.domain = domain := by simpa [Search.leadsFrom, searched] using hleads
      rw [← hfirst rfl]
      exact hoffers

theorem others_searchedInTurn {domain : String} {servers : List String}
    (hothers : ∀ q ∈ queries, q.domain ≠ domain → q.servers ≠ servers) :
    ∀ x ∈ router.searchedInTurn t before queries, ∀ route, x.result = .ok route →
      route.domain ≠ domain → route.servers ≠ servers := by
  induction queries generalizing before with
  | nil => simp [searchedInTurn]
  | cons q rest ih =>
      obtain ⟨hfirst, hothers⟩ := List.forall_mem_cons.1 hothers
      refine List.forall_mem_cons.2 ⟨fun route hroute => ?_, ih hothers⟩
      obtain rfl := Except.ok.inj hroute
      exact hfirst

end Router

namespace Rehearsal

/-- Two domains are deployed on two servers each, and a third one on the first server alone. -/
def gathered : Tables where
  domains := [(4, "here.example"), (9, "there.example"), (10, "alone.example")].map
    fun (id, name) => ⟨⟨id⟩, name, .known .production, none, none, none, false, 0, 0, "", ⟨0, 0⟩,
      ⟨0, 0⟩⟩
  deployments := [(4, "north"), (4, "south"), (9, "east"), (9, "west"), (10, "north")].map
    fun (id, server) => ⟨⟨5⟩, ⟨id⟩, server, .known .deployed, none, 0, none, none⟩

/-- All servers have one weight. -/
def level : Router where
  registry :=
    ⟨[⟨"north", "http://north.example", 1⟩, ⟨"south", "http://south.example", 1⟩,
      ⟨"east", "http://east.example", 1⟩, ⟨"west", "http://west.example", 1⟩]⟩
  settings := { strategy := .weighted }

def fromHere : Router.Query := ⟨"news@here.example", "here.example", ["north", "south"]⟩

def fromThere : Router.Query := ⟨"news@there.example", "there.example", ["east", "west"]⟩

def fromAlone : Router.Query := ⟨"news@alone.example", "alone.example", ["north"]⟩

theorem isServed_gathered : ∀ q ∈ [fromHere, fromThere, fromAlone], q.IsServed level gathered := by
  have hsenders : ∀ q ∈ [fromHere, fromThere, fromAlone],
      Address.senderDomain? q.sender = some q.domain ∧ q.servers ≠ [] := by
    decide +kernel
  have hrows : ∀ q ∈ [fromHere, fromThere, fromAlone], ∃ d ∈ gathered.domains,
      gathered.domains.find? (fun d => d.name == q.domain) = some d ∧
        ((gathered.deployments.filter fun row => level.Admits d row).Pairwise
          fun a b => a.rank ≤ b.rank) ∧
        q.servers =
          (gathered.deployments.filter fun row => level.Admits d row).map Deployment.server := by
    decide +kernel
  intro q hq
  obtain ⟨hsender, hservers⟩ := hsenders q hq
  obtain ⟨d, -, hfound, hordered, hnames⟩ := hrows q hq
  exact ⟨hsender, hservers, d, hfound, _, .refl _, hordered, hnames⟩

end Rehearsal

namespace Router

open Rehearsal (fromAlone fromHere fromThere gathered isServed_gathered level)

/-- Two domains on different servers that take turns: each gets one of its two servers only. -/
theorem may_starve_among_others :
    ¬ ∀ (router : Router) (domain : String) (servers : List String) (searches : List Search),
      router.settings.strategy = .weighted → router.Makes searches →
      (∀ x ∈ searches, x.leadsFrom domain = true → x.Offers router domain servers) →
      (∀ x ∈ searches, ∀ route, x.result = .ok route → route.domain ≠ domain →
        route.servers ≠ servers) →
      0 < (router.weights servers).sum → (router.weights servers).sum < 2 ^ 64 →
        ∀ stretch, stretch <:+: searches.filter (Search.leadsFrom domain) →
          stretch.length = (router.weights servers).sum →
            ∀ server ∈ servers, 0 < router.registry.weight server →
              ∃ x ∈ stretch, x.primary? = some server := by
  intro hclaim
  have hserved : ∀ q ∈ [fromHere, fromThere, fromHere], q.IsServed level gathered :=
    fun q hq => isServed_gathered q (by simp only [List.mem_cons] at hq ⊢; tauto)
  have hothers : ∀ q ∈ [fromHere, fromThere, fromHere], q.domain ≠ "here.example" →
      q.servers ≠ ["north", "south"] := by
    decide
  obtain ⟨x, hx, hprimary⟩ := hclaim level "here.example" ["north", "south"]
    (level.searchedInTurn gathered .initial [fromHere, fromThere, fromHere]) rfl
    (makes_searchedInTurn hserved) (offers_searchedInTurn hserved (by decide))
    (others_searchedInTurn hothers) (by decide) (by decide) _ List.infix_rfl (by decide +kernel)
    "south" (by decide) (by decide)
  have hnever : ∀ x ∈ (level.searchedInTurn gathered .initial
      [fromHere, fromThere, fromHere]).filter (Search.leadsFrom "here.example"),
        x.primary? ≠ some "south" := by
    decide +kernel
  exact hnever x hx hprimary

/-- A domain that has one server does not disturb the other one. -/
theorem south_beside_single :
    level.settings.strategy = .weighted ∧ (level.weights ["north", "south"]).sum = 2 ∧
      level.Makes (level.searchedInTurn gathered .initial [fromHere, fromAlone, fromHere]) ∧
      ∃ x ∈ (level.searchedInTurn gathered .initial [fromHere, fromAlone, fromHere]).filter
        (Search.leadsFrom "here.example"), x.primary? = some "south" := by
  have hserved : ∀ q ∈ [fromHere, fromAlone, fromHere], q.IsServed level gathered :=
    fun q hq => isServed_gathered q (by simp only [List.mem_cons] at hq ⊢; tauto)
  let searches := level.searchedInTurn gathered .initial [fromHere, fromAlone, fromHere]
  have hmade : level.Makes searches := makes_searchedInTurn hserved
  have hoffers : ∀ x ∈ searches, x.leadsFrom "here.example" = true →
      x.Offers level "here.example" ["north", "south"] := offers_searchedInTurn hserved (by decide)
  obtain ⟨-, hsouth⟩ := weights_honoured_if_undisturbed rfl hmade hoffers (by decide) (by decide)
  exact ⟨rfl, rfl, hmade, hsouth _ List.infix_rfl (by decide +kernel) (by decide +kernel) "south"
    (by decide) (by decide)⟩

end Router

end Mailroom
