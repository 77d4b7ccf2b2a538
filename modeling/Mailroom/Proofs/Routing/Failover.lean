import Mathlib
import Mailroom.Proofs.Delivery.Direct
import Mailroom.Proofs.Routing.Selection

/-!
Deliveries along a route.  The server that was chosen is asked first and the others after it, as far
as the settings allow.  Main statement: they are asked in order and once each until one of them takes
the message, and the result is that of the last one asked.
-/

namespace Mailroom

open Program (Asks Completes completes_pure completes_request)
open Service (completes_found_bind completes_liftExcept completes_of_bind completes_request_bind
  completes_store)

variable {around : Surroundings} {actor : Actor} {s s' u v w : Scene} {message : Message}

/-- Servers are chosen by the strategies, whatever they have counted so far. -/
def Surroundings.selecting : Surroundings
  | .choose strategy key servers, answer =>
      ∃ selection : Selection, answer = (selection.select strategy key servers).1
  | _, _ => True

/-- No server has two deployments of one domain. -/
def Tables.HasSingleDeployments (t : Tables) : Prop :=
  (t.deployments.map fun d => (d.domainId, d.server)).Nodup

namespace Tables

variable {t : Tables}

theorem HasSingleDeployments.deploymentsOf (ht : t.HasSingleDeployments) (domain : Uuid) :
    ((t.deploymentsOf domain).map Deployment.server).Nodup := by
  have hrows : (t.deploymentsOf domain).Perm
      (t.deployments.filter fun d => d.domainId == domain) := List.mergeSort_perm _ _
  rw [(hrows.map _).nodup_iff]
  refine List.Nodup.map_on ?_ ((List.Nodup.of_map _ ht).filter _)
  intro a ha b hb hserver
  simp only [List.mem_filter, beq_iff_eq] at ha hb
  exact List.inj_on_of_nodup_map ht ha.1 hb.1 (Prod.ext (ha.2.trans hb.2.symm) hserver)

theorem HasSingleDeployments.eligible (ht : t.HasSingleDeployments) (router : Router)
    {name : String} {config : DomainConfig} (hconfig : t.domainByName name = some config) :
    (router.eligible config).Nodup := by
  obtain ⟨d, -, rfl⟩ := Option.map_eq_some_iff.1 hconfig
  have hroutable : (DomainConfig.routable ⟨d, t.deploymentsOf d.id⟩).Sublist
      ((t.deploymentsOf d.id).map Deployment.server) := List.filter_sublist.map _
  exact (hroutable.nodup (ht.deploymentsOf d.id)).filter _

end Tables

namespace Router

variable {router : Router} {route : Route} {servers : List String}

theorem mem_of_completes_primary {domain server : String} {preferred : Option String}
    (hservers : servers ≠ [])
    (hrun : (router.primary domain servers preferred).run.Completes
      (Surroundings.selecting.acts actor) s (.ok server) s') : server ∈ servers := by
  unfold primary at hrun
  split at hrun
  · rename_i name hname
    obtain rfl := Except.ok.inj (completes_pure.1 hrun).1
    simpa using (Option.filter_eq_some_iff.1 hname).2
  · obtain ⟨place, u, hacts, hrest⟩ := completes_request_bind.1 hrun
    obtain rfl := Except.ok.inj (completes_pure.1 hrest).1
    obtain ⟨selection, rfl⟩ := hacts.1
    obtain ⟨place, hplace, hlt⟩ :=
      selection.exists_select (router.strategy servers) domain hservers
    simp [hplace, hlt]

/-- The servers of a route are those that are eligible for its domain, and the one that is asked
first is one of them. -/
theorem completes_route {sender : String} {preferred : Option String}
    (hrun : (router.route sender preferred).run.Completes (Surroundings.selecting.acts actor) s
      (.ok route) s') :
    (∃ config, s.tables.domainByName route.domain = some config ∧
      route.servers = router.eligible config) ∧ route.primary ∈ route.servers := by
  rcases completes_of_bind hrun with ⟨domain, u, hdomain, hrun⟩ | ⟨e, -, herror⟩
  · rw [(completes_liftExcept.1 hdomain).2] at hrun
    rcases completes_of_bind hrun with ⟨reply, v, hreply, hrun⟩ | ⟨e, -, herror⟩
    · obtain ⟨answer, hacts, hanswer⟩ := completes_store.1 hreply
      cases answer with
      | error failure => cases hanswer
      | ok found =>
          obtain rfl := Except.ok.inj hanswer
          obtain ⟨now, hfound, -⟩ := Surroundings.acts_ok hacts
          rcases completes_found_bind.1 hrun with ⟨config, hconfig, hrun⟩ | ⟨-, herror, -⟩
          · dsimp only at hrun
            split at hrun
            · rcases completes_of_bind hrun with ⟨_, _, hthrow, -⟩ | ⟨e, -, herror⟩
              · cases (completes_pure.1 hthrow).1
              · cases herror
            · rename_i hsome
              rcases completes_of_bind hrun with ⟨primary, _, hprimary, hrun⟩ | ⟨e, -, herror⟩
              · obtain rfl := Except.ok.inj (completes_pure.1 hrun).1
                have hservers : router.eligible config ≠ [] := by simpa using hsome
                exact ⟨⟨config, hfound.symm.trans hconfig, rfl⟩,
                  mem_of_completes_primary hservers hprimary⟩
              · cases herror
          · cases herror
    · cases herror
  · cases herror

theorem contains_of_mem_eligible {config : DomainConfig} {server : String}
    (hserver : server ∈ router.eligible config) : router.registry.contains server = true :=
  (List.mem_filter.1 hserver).2

/-- The servers of a route other than the one that is asked first, in deployment order. -/
def others (route : Route) : List String := route.servers.filter fun server => server != route.primary

/-- The servers that a delivery may go to, in the order in which they are asked. -/
def candidates (router : Router) (route : Route) : List String :=
  (route.primary :: others route).take
    (if router.settings.failover = false ∨ route.servers.length ≤ 1 then 1
      else 1 + min router.settings.maxRetries (others route).length)

theorem failsOver_eq_true_iff :
    router.failsOver route = true ↔
      ¬ (router.settings.failover = false ∨ route.servers.length ≤ 1) := by
  simp [failsOver]

theorem candidates_of_failsOver (h : router.failsOver route = true) :
    router.candidates route = route.primary :: router.alternates route := by
  rw [candidates, if_neg (failsOver_eq_true_iff.1 h), Nat.add_comm, List.take_succ_cons,
    ← List.take_eq_take_min]
  rfl

theorem candidates_of_not_failsOver (h : ¬ router.failsOver route = true) :
    router.candidates route = [route.primary] := by
  rw [failsOver_eq_true_iff, not_not] at h
  rw [candidates, if_pos h, List.take_succ_cons, List.take_zero]

theorem exists_candidates (router : Router) (route : Route) :
    ∃ rest, router.candidates route = route.primary :: rest := by
  by_cases hfailsOver : router.failsOver route = true
  · exact ⟨_, candidates_of_failsOver hfailsOver⟩
  · exact ⟨_, candidates_of_not_failsOver hfailsOver⟩

theorem candidates_nodup (hservers : route.servers.Nodup) : (router.candidates route).Nodup := by
  have hall : (route.primary :: others route).Nodup := by
    rw [List.nodup_cons]
    exact ⟨by simp [others], hservers.filter _⟩
  exact hall.sublist (List.take_sublist _ _)

theorem mem_servers_of_mem_candidates (hprimary : route.primary ∈ route.servers) {server : String}
    (hserver : server ∈ router.candidates route) : server ∈ route.servers := by
  rcases List.mem_cons.1 (List.mem_of_mem_take hserver) with rfl | hother
  · exact hprimary
  · exact (List.mem_filter.1 hother).1

end Router

/-- A server that is offered a message, and its answer. -/
abbrev Offer := String × Except ClientError String

/-- The event in which an actor offers a message to a server and is answered. -/
def Offer.event (o : Offer) (actor : Actor) (message : Message) (t : Tables) : Event :=
  ⟨actor, .mta o.1 (.submit message), o.2, t, t⟩

/-- From one scene to another, an actor offers a message to servers in turn, and that is all. -/
structure Scene.Offers (s : Scene) (actor : Actor) (message : Message) (offers : List Offer)
    (s' : Scene) : Prop where
  tables : s'.tables = s.tables
  history : s'.history =
    (offers.map fun o => o.event actor message s.tables).reverse ++ s.history

theorem Scene.Offers.nil (s : Scene) (actor : Actor) (message : Message) :
    s.Offers actor message [] s :=
  ⟨rfl, rfl⟩

theorem Scene.Offers.cons {o : Offer} {offers : List Offer} (h : s.Offers actor message [o] u)
    (h' : u.Offers actor message offers v) : s.Offers actor message (o :: offers) v := by
  constructor
  · exact h'.tables.trans h.tables
  · rw [h'.history, h.history, h.tables]
    simp

namespace Router

variable {router : Router} {route : Route} {servers : List String}
  {result : Except DispatchError Delivery}

/-- How servers that are asked in turn end a delivery: the first of them that takes the message
settles it, and if none does, the last error is told. -/
inductive Concludes (failure : (attempts : Nat) → ClientError → DispatchError)
    (servers : List String) : List Offer → Except DispatchError Delivery → Prop where
  | taken {refused : List (String × ClientError)} {server remoteId : String} {rest : List String}
      (hservers : servers = refused.map Prod.fst ++ server :: rest) :
      Concludes failure servers
        (refused.map (fun o => (o.1, .error o.2)) ++ [(server, .ok remoteId)])
        (.ok ⟨server, remoteId, refused.length + 1⟩)
  | refused {refused : List (String × ClientError)} {last : String × ClientError}
      (hservers : servers = (refused ++ [last]).map Prod.fst) :
      Concludes failure servers ((refused ++ [last]).map fun o => (o.1, .error o.2))
        (.error (failure (refused.length + 1) last.2))

namespace Concludes

variable {failure : Nat → ClientError → DispatchError} {offers : List Offer}

theorem isPrefix (h : Concludes failure servers offers result) :
    offers.map Prod.fst <+: servers := by
  cases h with
  | @taken _ _ _ rest hservers => exact ⟨rest, by simp [hservers, Function.comp_def]⟩
  | refused hservers => simp [hservers, Function.comp_def]

/-- Whatever the servers would have answered otherwise, a delivery succeeds exactly if one of them
takes the message. -/
theorem isOk_iff (h : Concludes failure servers offers result)
    {answers : String → Except ClientError String} (hanswers : ∀ o ∈ offers, answers o.1 = o.2) :
    (∃ delivery, result = .ok delivery) ↔
      ∃ server ∈ servers, ∃ remoteId, answers server = .ok remoteId := by
  cases h with
  | @taken refused server remoteId rest hservers =>
      have hserver : answers server = .ok remoteId := hanswers (server, .ok remoteId) (by simp)
      exact ⟨fun _ => ⟨server, by simp [hservers], remoteId, hserver⟩, fun _ => ⟨_, rfl⟩⟩
  | @refused refused last hservers =>
      constructor
      · rintro ⟨delivery, hdelivery⟩
        cases hdelivery
      · rintro ⟨server, hserver, remoteId, htakes⟩
        rw [hservers] at hserver
        obtain ⟨o, ho, rfl⟩ := List.mem_map.1 hserver
        have hrefuses := hanswers (o.1, .error o.2) (List.mem_map.2 ⟨o, ho, rfl⟩)
        rw [htakes] at hrefuses
        cases hrefuses

end Concludes

theorem offers_of_attempt {server : String} {answer : Except ClientError String}
    (hknown : router.registry.contains server = true)
    (hrun : (router.attempt server message).Completes (around.acts actor) s answer s') :
    s.Offers actor message [(server, answer)] s' := by
  rw [attempt, if_pos hknown] at hrun
  have hacts := completes_request.1 hrun
  refine ⟨hacts.2.1.1, ?_⟩
  rw [Surroundings.acts_history hacts, hacts.2.1.1]
  rfl

/-- After some servers have refused, others are asked in turn. -/
theorem concludes_failOver {domain : String} {last : ClientError}
    (refused : List (String × ClientError)) (asked : String)
    (hknown : ∀ server ∈ servers, router.registry.contains server = true)
    (hrun : (router.failOver domain message servers (refused.length + 1) last).Completes
      (around.acts actor) s result s') :
    ∃ offers, s.Offers actor message offers s' ∧
      Concludes (.allServersFailed domain) ((refused ++ [(asked, last)]).map Prod.fst ++ servers)
        ((refused ++ [(asked, last)]).map (fun o => (o.1, .error o.2)) ++ offers) result := by
  induction servers generalizing s refused asked last with
  | nil =>
      obtain ⟨rfl, rfl⟩ := completes_pure.1 hrun
      refine ⟨[], .nil _ _ _, ?_⟩
      rw [List.append_nil, List.append_nil]
      exact .refused rfl
  | cons server rest ih =>
      obtain ⟨hserver, hrest⟩ := List.forall_mem_cons.1 hknown
      obtain ⟨answer, u, hattempt, hrun⟩ := Completes.of_bind hrun
      have hoffer := offers_of_attempt hserver hattempt
      have hlength : (refused ++ [(asked, last)]).length = refused.length + 1 := by simp
      cases answer with
      | ok remoteId =>
          obtain ⟨rfl, rfl⟩ := completes_pure.1 hrun
          refine ⟨_, hoffer, ?_⟩
          rw [← hlength]
          exact .taken rfl
      | error error =>
          rw [← hlength] at hrun
          obtain ⟨offers, hoffers, hconcludes⟩ := ih _ _ hrest hrun
          refine ⟨_, hoffer.cons hoffers, ?_⟩
          simpa using hconcludes

/-- How a delivery along a route fails when all servers that were asked refused. -/
def failure (router : Router) (route : Route) : (attempts : Nat) → ClientError → DispatchError :=
  if router.settings.failover = false ∨ route.servers.length ≤ 1 then
    fun _ => .serverFailed route.primary
  else .allServersFailed route.domain

theorem concludes_deliver
    (hknown : ∀ server ∈ router.candidates route, router.registry.contains server = true)
    (hrun : (router.deliver route message).run.Completes (around.acts actor) s result s') :
    ∃ offers, s.Offers actor message offers s' ∧
      Concludes (router.failure route) (router.candidates route) offers result := by
  obtain ⟨rest, hcandidates⟩ := router.exists_candidates route
  obtain ⟨answer, u, hattempt, hrun⟩ := Completes.of_bind hrun
  have hoffer := offers_of_attempt (hknown route.primary (by simp [hcandidates])) hattempt
  cases answer with
  | ok remoteId =>
      obtain ⟨rfl, rfl⟩ := completes_pure.1 hrun
      exact ⟨_, hoffer, @Concludes.taken _ _ [] _ _ rest hcandidates⟩
  | error error =>
      dsimp only at hrun
      by_cases hfailsOver : router.failsOver route = true
      · rw [if_pos hfailsOver] at hrun
        rw [failure, if_neg (failsOver_eq_true_iff.1 hfailsOver)]
        rw [candidates_of_failsOver hfailsOver] at hknown ⊢
        have hothers := fun server hserver => hknown server (List.mem_cons_of_mem _ hserver)
        obtain ⟨offers, hoffers, hconcludes⟩ := concludes_failOver [] route.primary hothers hrun
        exact ⟨_, hoffer.cons hoffers, hconcludes⟩
      · rw [if_neg hfailsOver] at hrun
        obtain ⟨rfl, rfl⟩ := completes_pure.1 hrun
        rw [candidates_of_not_failsOver hfailsOver]
        rw [failsOver_eq_true_iff, not_not] at hfailsOver
        rw [failure, if_pos hfailsOver]
        exact ⟨_, hoffer, @Concludes.refused _ _ [] (route.primary, error) rfl⟩

/-- Every server answers offers in its own way. -/
def answering (answers : String → Except ClientError String) : Surroundings
  | .mta server (.submit _), answer => answer = answers server
  | _, _ => True

/-- Nothing fails, and servers answer offers in their own ways. -/
def answerer (answers : String → Except ClientError String) : Circumstances where
  answer
    | server, .submit _ => answers server
    | _, .status _ => .ok default
    | _, .health => .ok ()
    | _, .push _ => .ok ()
    | _, .remove _ => .ok ()
  failure? _ := none
  now := ⟨0, 0⟩

theorem completes_deliver_answered (router : Router) (route : Route) (message : Message)
    (answers : String → Except ClientError String) (actor : Actor) (s : Scene) :
    (router.deliver route message).run.Completes ((answering answers).acts actor) s
      ((router.deliver route message).run.alone ((answerer answers).respond actor) s).1
      ((router.deliver route message).run.alone ((answerer answers).respond actor) s).2 := by
  apply Circumstances.completes
  intro s e
  cases e with
  | mta server call => cases call <;> first | rfl | trivial
  | _ => trivial

/-- A delivery along a route that was found goes to the servers that are eligible for the domain, in
order and to each at most once, until one of them takes the message; it succeeds exactly if one of
those that may be asked does.  Whatever the servers answer, it comes to an end. -/
theorem deliver_in_order {sender : String} {preferred : Option String}
    (hrows : s.tables.HasSingleDeployments)
    (hroute : (router.route sender preferred).run.Completes
      (Surroundings.selecting.acts actor) s (.ok route) s') (message : Message) :
    ((∃ config, s.tables.domainByName route.domain = some config ∧
        route.servers = router.eligible config) ∧ route.primary ∈ route.servers) ∧
      (router.candidates route).Nodup ∧
      (∀ around actor u result v,
        (router.deliver route message).run.Completes (Surroundings.acts around actor) u result v →
          ∃ offers, u.Offers actor message offers v ∧
            Concludes (router.failure route) (router.candidates route) offers result ∧
            offers.map Prod.fst <+: router.candidates route ∧
            u.Takes v (taken message result) ∧
            ∀ answers : String → Except ClientError String, (∀ o ∈ offers, answers o.1 = o.2) →
              ((∃ delivery, result = .ok delivery) ↔
                ∃ server ∈ router.candidates route, ∃ remoteId, answers server = .ok remoteId)) ∧
      ∀ answers actor u, ∃ result v, (router.deliver route message).run.Completes
        ((answering answers).acts actor) u result v := by
  obtain ⟨⟨config, hconfig, hservers⟩, hprimary⟩ := completes_route hroute
  have hnodup : route.servers.Nodup := hservers ▸ hrows.eligible router hconfig
  have hknown : ∀ server ∈ router.candidates route,
      router.registry.contains server = true := by
    intro server hserver
    have heligible := mem_servers_of_mem_candidates hprimary hserver
    exact contains_of_mem_eligible (hservers ▸ heligible)
  refine ⟨⟨⟨config, hconfig, hservers⟩, hprimary⟩, candidates_nodup hnodup, ?_, ?_⟩
  · intro around actor u result v hrun
    obtain ⟨offers, hoffers, hconcludes⟩ := concludes_deliver hknown hrun
    exact ⟨offers, hoffers, hconcludes, hconcludes.isPrefix, (completes_deliver hrun).2,
      fun answers hanswers => hconcludes.isOk_iff hanswers⟩
  · intro answers actor u
    exact ⟨_, _, router.completes_deliver_answered route message answers actor u⟩

end Router

namespace Rehearsal

/-- The domain is deployed on two servers. -/
def shared : Tables where
  domains := deployed.domains
  deployments := deployed.deployments ++ [⟨⟨6⟩, ⟨4⟩, "south", .known .outdated, none, 1, none, none⟩]

def relay : Router :=
  ⟨⟨[⟨"north", "http://north.example", 1⟩, ⟨"south", "http://south.example", 2⟩]⟩, {}⟩

/-- Servers are chosen with counters that have not counted yet, and nothing fails. -/
def choosing : (e : Effect) → Scene → e.Answer × Scene
  | .choose strategy key servers, s =>
      let answer := (Selection.initial.select strategy key servers).1
      (answer, ⟨s.tables, s.accepted,
        ⟨.engine, .choose strategy key servers, answer, s.tables, s.tables⟩ :: s.history⟩)
  | e, s => (fair "waiting").respond .engine e s

theorem acts_choosing (e : Effect) (s : Scene) :
    Surroundings.selecting.acts .engine e (choosing e s).1 s (choosing e s).2 := by
  cases e with
  | choose strategy key servers => exact ⟨⟨.initial, rfl⟩, ⟨rfl, rfl⟩, rfl⟩
  | _ => exact ⟨trivial, (Circumstances.acts_respond (reliable_fair "waiting") _ s).2⟩

/-- The first server is full. -/
def fullNorth (server : String) : Except ClientError String :=
  if server = "north" then .error (.status 552 "full") else .ok "m-2"

end Rehearsal

namespace Router

open Rehearsal (choosing fullNorth letter relay shared)

/-- The message that the first server refuses goes to the second one. -/
theorem relayed_to_south :
    shared.HasSingleDeployments ∧
      ∃ route s' message result v offers,
        (relay.route letter.sender none).run.Completes (Surroundings.selecting.acts .engine)
          ⟨shared, [], []⟩ (.ok route) s' ∧
        relay.candidates route = ["north", "south"] ∧
        (relay.deliver route message).run.Completes ((answering fullNorth).acts .engine)
          ⟨shared, [], []⟩ result v ∧
        Scene.Offers ⟨shared, [], []⟩ .engine message offers v ∧
        Concludes (relay.failure route) (relay.candidates route) offers result ∧
        result = .ok ⟨"south", "m-2", 2⟩ := by
  have hrows : shared.HasSingleDeployments := by
    rw [Tables.HasSingleDeployments]
    decide
  have hrun := Program.completes_alone Rehearsal.acts_choosing
    (relay.route letter.sender none).run ⟨shared, [], []⟩
  have hroute : ((relay.route letter.sender none).run.alone choosing ⟨shared, [], []⟩).1 =
      .ok ⟨"here.example", "north", ["north", "south"]⟩ := by
    cbv
  rw [hroute] at hrun
  obtain ⟨message, -⟩ : ∃ message, message = letter.message ⟨"News", none, some "Hello"⟩ :=
    ⟨_, rfl⟩
  obtain ⟨-, -, hconcludes, -⟩ := deliver_in_order hrows hrun message
  have hdeliver := relay.completes_deliver_answered
    ⟨"here.example", "north", ["north", "south"]⟩ message fullNorth .engine ⟨shared, [], []⟩
  obtain ⟨offers, hoffers, hends, -⟩ := hconcludes _ _ _ _ _ hdeliver
  exact ⟨hrows, _, _, message, _, _, offers, hrun, by decide, hdeliver, hoffers, hends, rfl⟩

end Router

end Mailroom
