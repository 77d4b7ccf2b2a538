import Mailroom.Domain.Sync
import Mailroom.Proofs.Concurrency.Alone
import Mailroom.Proofs.Store.Deployments
import Mailroom.Proofs.Store.Instants

/-!
Calls that keep servers in step with the settings of domains, on a store in memory that never fails.
Main statement: a call that nobody interrupts has one of seven outcomes.
-/

namespace Mailroom.DomainSync

inductive Call where
  | deploy (registry : Registry) (name server : String)
  | undeploy (registry : Registry) (name server : String)
  | update (name : String) (patch : DomainPatch)
deriving DecidableEq

namespace Call

@[reducible] def Reply : Call → Type
  | deploy _ _ _ => Deployment
  | undeploy _ _ _ => Bool
  | update _ _ => Domain

def program : (c : Call) → Program (Except DispatchError c.Reply)
  | deploy registry name server => (DomainSync.deploy registry name server).run
  | undeploy registry name server => (DomainSync.undeploy registry name server).run
  | update name patch => (DomainSync.update name patch).run

def name : Call → String
  | deploy _ name _ | undeploy _ name _ | update name _ => name

/-- The server that a call is about, and the servers that are known to it. -/
def target? : Call → Option (Registry × String)
  | deploy registry _ server | undeploy registry _ server => some (registry, server)
  | update _ _ => none

end Call

/-- A request that was answered, and the place of the call that made it among all calls. -/
structure Deed where
  place : Nat
  effect : Effect
  answer : effect.Answer

/-- The tables, and all that has been done, the latest first. -/
structure Site where
  tables : Tables
  history : List Deed := []

namespace Site

/-- What requests of the call in a place make of a site: the store serves at some instant, servers
answer as they like. -/
def acts (place : Nat) : Acts Site := fun e answer u v =>
  (∃ now, e.AnsweredAt now answer u.tables v.tables) ∧
    v.history = ⟨place, e, answer⟩ :: u.history

variable {u v : Site} {place : Nat}

def served (u : Site) (place : Nat) (now : Timestamp) (call : StoreCall) : Site :=
  ⟨(u.tables.serve now call).2, ⟨place, .store call, .ok (u.tables.serve now call).1⟩ :: u.history⟩

def answered (u : Site) (place : Nat) (server : String) (call : MtaCall) (answer : call.Answer) :
    Site :=
  ⟨u.tables, ⟨place, .mta server call, answer⟩ :: u.history⟩

def looked (u : Site) (place : Nat) (name : String) : Site :=
  ⟨u.tables, ⟨place, .store (.domainByName name), .ok (u.tables.domainByName name)⟩ :: u.history⟩

theorem acts_store {call : StoreCall} {answer : call.Answer} :
    acts place (.store call) answer u v ↔
      ∃ now, answer = .ok (u.tables.serve now call).1 ∧ v = u.served place now call := by
  constructor
  · rintro ⟨⟨now, rfl, htables⟩, hhistory⟩
    refine ⟨now, rfl, ?_⟩
    rw [served, ← htables, ← hhistory]
  · rintro ⟨now, rfl, rfl⟩
    exact ⟨⟨now, rfl, rfl⟩, rfl⟩

theorem acts_mta {server : String} {call : MtaCall} {answer : call.Answer} :
    acts place (.mta server call) answer u v ↔ v = u.answered place server call answer := by
  constructor
  · rintro ⟨⟨now, htables⟩, hhistory⟩
    rw [answered, ← hhistory, ← show v.tables = u.tables from htables]
  · rintro rfl
    exact ⟨⟨⟨0, 0⟩, rfl⟩, rfl⟩

/-- What a request of the call in a place makes of a site in some circumstances. -/
def respond (c : Circumstances) (place : Nat) (e : Effect) (u : Site) : e.Answer × Site :=
  let (answer, tables, _) := c.reaction ⟨u.tables, [], []⟩ e
  (answer, ⟨tables, ⟨place, e, answer⟩ :: u.history⟩)

theorem acts_respond {c : Circumstances} (hfailure : ∀ call, c.failure? call = none) (place : Nat)
    (e : Effect) (u : Site) : acts place e (respond c place e u).1 u (respond c place e u).2 := by
  cases e with
  | store call =>
      simp only [respond, Circumstances.reaction, hfailure]
      exact ⟨⟨c.now, rfl, rfl⟩, rfl⟩
  | storeLater call => exact ⟨⟨c.now, .inl rfl⟩, rfl⟩
  | now => exact ⟨⟨c.now, rfl, rfl⟩, rfl⟩
  | _ => exact ⟨⟨c.now, rfl⟩, rfl⟩

/-- In any circumstances in which the store does not fail, a call that nobody interrupts comes to an
end. -/
theorem completes_respond {c : Circumstances} (hfailure : ∀ call, c.failure? call = none)
    (place : Nat) (call : Call) (u : Site) :
    call.program.Completes (acts place) u (call.program.alone (respond c place) u).1
      (call.program.alone (respond c place) u).2 :=
  call.program.completes_alone (acts_respond hfailure place) u

end Site

section

open Program (Completes completes_pure)
open Service (completes_of_bind completes_found_bind completes_request_bind)

variable {u v : Site} {place : Nat} {ε α : Type} {result : Except ε α}

theorem completes_store [OfFailure ε] {call : StoreCall} {result : Except ε call.Reply}
    (hrun : (Service.store call).run.Completes (Site.acts place) u result v) :
    ∃ now, result = .ok (u.tables.serve now call).1 ∧ v = u.served place now call := by
  obtain ⟨answer, hacts, rfl⟩ := Service.completes_store.1 hrun
  obtain ⟨now, rfl, rfl⟩ := Site.acts_store.1 hacts
  exact ⟨now, rfl, rfl⟩

theorem completes_store_bind [OfFailure ε] {call : StoreCall} {f : call.Reply → Service ε α}
    (hrun : (Service.store call >>= f).run.Completes (Site.acts place) u result v) :
    ∃ now, (f (u.tables.serve now call).1).run.Completes (Site.acts place)
      (u.served place now call) result v := by
  rcases completes_of_bind hrun with ⟨reply, w, hstore, hrest⟩ | ⟨error, hstore, -⟩
  · obtain ⟨now, hreply, rfl⟩ := completes_store hstore
    obtain rfl := Except.ok.inj hreply
    exact ⟨now, hrest⟩
  · obtain ⟨now, hreply, -⟩ := completes_store hstore
    cases hreply

theorem completes_mta_bind {server : String} {call : MtaCall} {f : call.Answer → Service ε α}
    (hrun : (Service.mta server call >>= f).run.Completes (Site.acts place) u result v) :
    ∃ answer, (f answer).run.Completes (Site.acts place) (u.answered place server call answer)
      result v := by
  obtain ⟨answer, w, hacts, hrest⟩ := completes_request_bind.1 hrun
  obtain rfl := Site.acts_mta.1 hacts
  exact ⟨answer, hrest⟩

theorem completes_load_bind {name : String} {f : DomainConfig → Service DispatchError α}
    {result : Except DispatchError α}
    (hrun : (load name >>= f).run.Completes (Site.acts place) u result v) :
    (u.tables.domainByName name = none ∧ result = .error (.domainNotFound name) ∧
        v = u.looked place name) ∨
      ∃ config, u.tables.domainByName name = some config ∧
        (f config).run.Completes (Site.acts place) (u.looked place name) result v := by
  rw [load, bind_assoc] at hrun
  obtain ⟨now, hrest⟩ := completes_store_bind hrun
  rcases completes_found_bind.1 hrest with ⟨config, hsome, hrest⟩ | ⟨hnone, hresult, hv⟩
  · exact .inr ⟨config, hsome, hrest⟩
  · exact .inl ⟨hnone, hresult, hv⟩

theorem completes_checkServer_bind {registry : Registry} {server : String}
    {f : Unit → Service DispatchError α} {result : Except DispatchError α}
    (hrun : (checkServer registry server >>= f).run.Completes (Site.acts place) u result v) :
    (registry.contains server = false ∧
        result = .error (.invalidRequest ("server " ++ server ++ " is not configured")) ∧ v = u) ∨
      registry.contains server = true ∧ (f ()).run.Completes (Site.acts place) u result v := by
  rw [checkServer] at hrun
  split at hrun
  · rename_i hknown
    exact .inr ⟨hknown, hrun⟩
  · rename_i hunknown
    exact .inl ⟨by simpa using hunknown, completes_pure.1 hrun⟩

end

/-- How a call may come out that nobody interrupts. -/
inductive Outcome (place : Nat) (u : Site) :
    (c : Call) → Except DispatchError c.Reply → Site → Prop where
  | unknownDomain {c : Call} (hnone : u.tables.domainByName c.name = none) :
      Outcome place u c (.error (.domainNotFound c.name)) (u.looked place c.name)
  | unknownServer {c : Call} {config : DomainConfig} {registry : Registry} {server : String}
      (hsome : u.tables.domainByName c.name = some config)
      (htarget : c.target? = some (registry, server)) (hunknown : registry.contains server = false) :
      Outcome place u c (.error (.invalidRequest ("server " ++ server ++ " is not configured")))
        (u.looked place c.name)
  | deployed {registry : Registry} {name server : String} {config : DomainConfig} {now : Timestamp}
      (hsome : u.tables.domainByName name = some config)
      (hknown : registry.contains server = true) :
      Outcome place u (.deploy registry name server)
        (.ok (u.tables.putDeployment config.domain.id server .deployed
          (some config.domain.configHash) none now).1)
        (((u.looked place name).answered place server (.push (.ofDomain config.domain))
            (.ok ())).served place now
          (.putDeployment config.domain.id server .deployed (some config.domain.configHash) none))
  | failed {registry : Registry} {name server : String} {config : DomainConfig} {now : Timestamp}
      {e : ClientError} (hsome : u.tables.domainByName name = some config)
      (hknown : registry.contains server = true) :
      Outcome place u (.deploy registry name server) (.error (.serverFailed server e))
        (((u.looked place name).answered place server (.push (.ofDomain config.domain))
            (.error e)).served place now
          (.putDeployment config.domain.id server .failed none (some e.message)))
  | undeployed {registry : Registry} {name server : String} {config : DomainConfig}
      {now : Timestamp} (hsome : u.tables.domainByName name = some config)
      (hknown : registry.contains server = true) :
      Outcome place u (.undeploy registry name server)
        (.ok (u.tables.dropDeployment config.domain.id server).1)
        (((u.looked place name).answered place server (.remove config.domain.name)
            (.ok ())).served place now (.dropDeployment config.domain.id server))
  | stayed {registry : Registry} {name server : String} {config : DomainConfig} {e : ClientError}
      (hsome : u.tables.domainByName name = some config)
      (hknown : registry.contains server = true) :
      Outcome place u (.undeploy registry name server) (.error (.serverFailed server e))
        ((u.looked place name).answered place server (.remove config.domain.name) (.error e))
  | updated {name : String} {patch : DomainPatch} {config : DomainConfig} {d : Domain}
      {stored marked : Timestamp} (hsome : u.tables.domainByName name = some config)
      (hd : (u.tables.updateDomain config.domain.id patch stored).1 = some d) :
      Outcome place u (.update name patch) (.ok d)
        (((u.looked place name).served place stored
            (.updateDomain config.domain.id patch)).served place marked
          (.markOutdated d.id d.configHash))

section

open Program (Completes completes_pure)
open Service (completes_found_bind completes_of_bind)

variable {u v : Site} {place : Nat}

theorem outcome_deploy {registry : Registry} {name server : String}
    {result : Except DispatchError Deployment}
    (hrun : (deploy registry name server).run.Completes (Site.acts place) u result v) :
    Outcome place u (.deploy registry name server) result v := by
  rcases completes_load_bind hrun with ⟨hnone, rfl, rfl⟩ | ⟨config, hsome, hrest⟩
  · exact .unknownDomain (c := .deploy registry name server) hnone
  rcases completes_checkServer_bind hrest with ⟨hunknown, rfl, rfl⟩ | ⟨hknown, hrest⟩
  · exact .unknownServer (c := .deploy registry name server) hsome rfl hunknown
  obtain ⟨answer, hrest⟩ := completes_mta_bind hrest
  cases answer with
  | ok _ =>
      obtain ⟨now, rfl, rfl⟩ := completes_store hrest
      exact .deployed hsome hknown
  | error e =>
      obtain ⟨now, hrest⟩ := completes_store_bind hrest
      obtain ⟨rfl, rfl⟩ := completes_pure.1 hrest
      exact .failed hsome hknown

theorem outcome_undeploy {registry : Registry} {name server : String}
    {result : Except DispatchError Bool}
    (hrun : (undeploy registry name server).run.Completes (Site.acts place) u result v) :
    Outcome place u (.undeploy registry name server) result v := by
  rcases completes_load_bind hrun with ⟨hnone, rfl, rfl⟩ | ⟨config, hsome, hrest⟩
  · exact .unknownDomain (c := .undeploy registry name server) hnone
  rcases completes_checkServer_bind hrest with ⟨hunknown, rfl, rfl⟩ | ⟨hknown, hrest⟩
  · exact .unknownServer (c := .undeploy registry name server) hsome rfl hunknown
  obtain ⟨answer, hrest⟩ := completes_mta_bind hrest
  cases answer with
  | ok _ =>
      obtain ⟨now, rfl, rfl⟩ := completes_store hrest
      exact .undeployed hsome hknown
  | error e =>
      obtain ⟨rfl, rfl⟩ := completes_pure.1 hrest
      exact .stayed hsome hknown

theorem outcome_update {name : String} {patch : DomainPatch} {result : Except DispatchError Domain}
    (hrun : (update name patch).run.Completes (Site.acts place) u result v) :
    Outcome place u (.update name patch) result v := by
  rcases completes_load_bind hrun with ⟨hnone, rfl, rfl⟩ | ⟨config, hsome, hrest⟩
  · exact .unknownDomain (c := .update name patch) hnone
  obtain ⟨stored, hrest⟩ := completes_store_bind hrest
  rcases completes_found_bind.1 hrest with ⟨d, hd, hrest⟩ | ⟨hnone, -, -⟩
  · obtain ⟨marked, hrest⟩ := completes_store_bind hrest
    obtain ⟨rfl, rfl⟩ := completes_pure.1 hrest
    exact .updated hsome hd
  · -- nobody can have removed the domain in between
    have hmem := (Tables.domainByName_eq_some hsome).1
    change (u.tables.updateDomain config.domain.id patch stored).1 = none at hnone
    rw [Tables.updateDomain] at hnone
    split at hnone
    · rename_i hfind
      simpa using List.find?_eq_none.1 hfind _ hmem
    · cases hnone

theorem outcome_of_completes {c : Call} {result : Except DispatchError c.Reply}
    (hrun : c.program.Completes (Site.acts place) u result v) : Outcome place u c result v := by
  cases c with
  | deploy registry name server => exact outcome_deploy hrun
  | undeploy registry name server => exact outcome_undeploy hrun
  | update name patch => exact outcome_update hrun

end

namespace Trial

def domain : Domain := .create ⟨1⟩ "here.example" ⟨0, 0⟩

def tables : Tables := { domains := [domain] }

def registry : Registry := ⟨[⟨"north", "http://north.example", 1⟩]⟩

def deploy : Call := .deploy registry "here.example" "north"

/-- The server takes all settings. -/
def fair : Circumstances := Rehearsal.fair ""

/-- The server takes no settings. -/
def refusing : Circumstances where
  answer
    | _, .push _ => .error (.transport "refused")
    | server, call => Rehearsal.answer "" server call
  failure? _ := none
  now := ⟨0, 0⟩

def once : Site := (deploy.program.alone (Site.respond fair 0) ⟨tables, []⟩).2

end Trial

end Mailroom.DomainSync
