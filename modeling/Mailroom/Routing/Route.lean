import Mailroom.Address
import Mailroom.Mta.Registry
import Mailroom.Program

/-!
From a sender to a server: the domain that the sender writes from, the servers that hold it, and the
one that is asked first.  A message that it refuses is offered to the others in turn.
-/

namespace Mailroom

/-- The servers for a sender's domain in deployment order, and the one to ask first. -/
structure Route where
  domain : String
  primary : String
  servers : List String
deriving DecidableEq, Repr, Inhabited

/-- A message that a server took, after so many servers were asked. -/
structure Delivery where
  server : String
  remoteId : String
  attempts : Nat
deriving DecidableEq, Repr, Inhabited

/-- What routing depends on: the known servers and the settings. -/
structure Router where
  registry : Registry
  settings : RoutingSettings
deriving DecidableEq, Repr, Inhabited

namespace Router

/-- The servers that mail from a domain may go out through. -/
def eligible (r : Router) (c : DomainConfig) : List String := c.routable.filter r.registry.contains

/-- The strategy bound to some servers. -/
def strategy (r : Router) (servers : List String) : Strategy :=
  .forServers r.settings.strategy servers r.registry.weight

/-- The server to ask first: the preferred one if it is eligible, else the strategy's choice. -/
def primary (r : Router) (domain : String) (servers : List String) (preferred : Option String) :
    Service DispatchError String :=
  match preferred.filter servers.contains with
  | some server => pure server
  | none => do
      let place ← Service.request (.choose (r.strategy servers) domain servers)
      return servers.getD (place.getD 0) ""

def senderDomain (sender : String) : Except DispatchError String :=
  if Text.trimmed sender = "" then .error (.invalidRequest "sender address is required")
  else
    match Address.senderDomain? sender with
    | some domain => .ok domain
    | none => .error (.invalidRequest ("invalid sender address: " ++ sender))

def route (r : Router) (sender : String) (preferred : Option String) :
    Service DispatchError Route := do
  let domain ← liftExcept (senderDomain sender)
  let config ← Service.found (.domainNotFound domain) (← Service.store (.domainByName domain))
  let servers := r.eligible config
  if servers.isEmpty then throw (.noServersAvailable domain)
  return ⟨domain, ← r.primary domain servers preferred, servers⟩

def attempt (r : Router) (server : String) (message : Message) :
    Program (Except ClientError String) :=
  if r.registry.contains server then Program.request (.mta server (.submit message))
  else return .error (.transport ("server " ++ server ++ " is not registered"))

/-- Offer a message to some servers in turn, after `attempts` were asked and the last one of them
refused with an error. -/
def failOver (r : Router) (domain : String) (message : Message) :
    List String → (attempts : Nat) → ClientError → Program (Except DispatchError Delivery)
  | [], attempts, last => return .error (.allServersFailed domain attempts last)
  | server :: rest, attempts, _ => do
      match ← r.attempt server message with
      | .ok remoteId => return .ok ⟨server, remoteId, attempts + 1⟩
      | .error e => r.failOver domain message rest (attempts + 1) e

def alternates (r : Router) (route : Route) : List String :=
  (route.servers.filter fun s => s != route.primary).take r.settings.maxRetries

def failsOver (r : Router) (route : Route) : Bool :=
  r.settings.failover && 1 < route.servers.length

def deliver (r : Router) (route : Route) (message : Message) : Service DispatchError Delivery :=
  ExceptT.mk do
    match ← r.attempt route.primary message with
    | .ok remoteId => return .ok ⟨route.primary, remoteId, 1⟩
    | .error e =>
        if r.failsOver route then r.failOver route.domain message (r.alternates route) 1 e
        else return .error (.serverFailed route.primary e)

def send (r : Router) (message : Message) (preferred : Option String) :
    Service DispatchError Delivery := do
  let route ← r.route message.sender preferred
  r.deliver route message

end Router

end Mailroom
