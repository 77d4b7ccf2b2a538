import Mailroom.Bench.World
import Mailroom.Access.Secret
import Mailroom.Json.Member

/-!
Descriptions of a world for the bench: its mail servers with their scripts, its settings, and the
rows that its store begins with.
-/

namespace Mailroom.Bench

open Json (Decoder Fields)

/-- Why a description is refused. -/
inductive Flaw where
  | unreadable
  | misfit
  | unknownWord (text : String)
deriving DecidableEq, Repr

/-- Something read out of a description. -/
abbrev Described (α : Type) := Except Flaw α

namespace Described

/-- A value in the form that it has elsewhere. -/
def decode {α : Type} (d : Decoder α) (j : Json) : Described α :=
  (d j).mapError fun _ => .misfit

/-- A value or null. -/
def optional {α : Type} (read : Json → Described α) : Json → Described (Option α)
  | .null => .ok none
  | j => (read j).map some

/-- A word of a vocabulary; `kind` says what is missing otherwise. -/
def word {σ : Type} [Vocabulary σ] (kind text : String) : Described σ :=
  match Vocabulary.ofWord? text with
  | some s => .ok s
  | none => .error (.unknownWord ("Invalid " ++ kind ++ ": " ++ text))

def id : Json → Described Uuid
  | .int n => .ok ⟨n.toNat⟩
  | .str s =>
      match Uuid.parse? s with
      | some id => .ok id
      | none => .error .unreadable
  | _ => .error .unreadable

def idAt (j : Json) (name : String) : Described Uuid := id (j.memberAt name)

def idAt? (j : Json) (name : String) : Described (Option Uuid) := optional id (j.memberAt name)

end Described

open Described

/-- A reply of a script: null for success, else the error. -/
def reply : Json → Described (Option ClientError)
  | .null => .ok none
  | j =>
      match j.get? "transport", j.get? "code", j.get? "invalid" with
      | some (.str text), _, _ => .ok (some (.transport text))
      | _, some (.int code), _ => .ok (some (.status code.toNat (j.textAt "body" "")))
      | _, _, some (.str text) => .ok (some (.invalidResponse text))
      | _, _, _ => .error .unreadable

/-- The kinds of calls that may have a script. -/
def callKinds : List String := ["send", "health", "push", "remove", "status"]

def scripts (j : Json) : Described (List (String × List (Option ClientError))) :=
  callKinds.filterMapM fun kind =>
    match j.get? kind with
    | some (.arr replies) => do return some (kind, ← replies.mapM reply)
    | _ => return none

/-- The recipients that a mail server refuses. -/
def refusals (j : Json) : Described (List (String × ClientError)) :=
  (j.memberAt "fail_to").members.filterMapM fun (recipient, r) => do
    return (← reply r).map fun e => (recipient, e)

def station (j : Json) : Described (Server × Station) := do
  let name := j.textAt "name" ""
  return (⟨name, j.textAt "url" ("http://" ++ name), j.natAt "weight" 1⟩,
    { name, delay := j.natAt "delay_ms" 0, scripts := ← scripts j, refusals := ← refusals j })

/-- What a mail server is told to say about a message. -/
def remoteStatus (j : Json) : Except ClientError RemoteStatus :=
  match reply j with
  | .ok (some e) => .error e
  | _ => (RemoteStatus.fields.decoder j).mapError fun _ => .invalidResponse "unexpected status"

def addDomain (t : Tables) (j : Json) : Described Tables := do
  let created := Domain.create (← idAt j "id") (j.textAt "name" "") World.beginning
  let patch ← optional (decode DomainPatch.decoder) (j.memberAt "settings")
  let d := patch.elim created fun p => p.apply World.beginning created
  (j.listAt "deployments").foldlM
    (fun t row => do
      let status ← word "deployment status" (row.textAt "status" "")
      let hash := match row.get? "hash" with
        | none => some d.configHash
        | some hash => hash.str?
      return (t.putDeployment d.id (row.textAt "server" "") status hash (row.textAt? "error")
        World.beginning).2)
    (t.addDomain d)

def template (j : Json) : Described Template := do
  return ⟨← idAt j "id", j.textAt "name" "", j.textAt "subject" "", j.textAt? "html",
    j.textAt? "text", World.beginning, World.beginning⟩

/-- Any value, or an empty object. -/
def variablesOf (j : Json) : Json := ((j.get? "variables").map Json.canonical).getD (.obj [])

def campaign (j : Json) : Described Campaign := do
  return ⟨← idAt j "id", j.textAt "name" "", j.textAt "from" "", j.textAt? "reply_to",
    ← idAt? j "template", j.textAt? "subject", j.textAt? "html", j.textAt? "text", variablesOf j,
    ← idAt j "list", World.beginning, World.beginning⟩

def variant (j : Json) : Described Variant := do
  return ⟨← idAt j "id", ← idAt j "campaign", j.textAt "name" "", j.intAt "weight" 1,
    ← idAt? j "template", j.textAt? "subject", j.textAt? "html", j.textAt? "text"⟩

def recipient (j : Json) : Described Recipient := do
  return ⟨← idAt j "id", ← idAt j "list", j.textAt "email" "", j.textAt? "name", variablesOf j,
    World.beginning⟩

def recipients (j : Json) : Described (List Recipient) := do
  let list ← idAt j "list"
  let first := j.natAt "first_id" 1000000
  return (List.range (j.natAt "count" 0)).map fun i =>
    ⟨⟨first + i⟩, list, "u" ++ toString i ++ "@" ++ j.textAt "domain" "", none, .obj [],
      World.beginning⟩

def apiKey (j : Json) : Described ApiKey := do
  let secret := j.textAt "key" ""
  let list (name : String) : Json := ((j.get? name).map Json.canonical).getD (.arr [])
  return ⟨← idAt j "id", j.textAt "name" "", j.textAt "hash" (Digest.sha256Hex secret),
    j.textAt "prefix" ((Access.leadOf? secret).getD secret), list "scopes", list "allowed_domains",
    j.intAt "per_minute" 0, j.intAt "per_hour" 0,
    ← optional (decode .time) (j.memberAt "expires_at"), none, World.beginning⟩

/-- The kinds of rows, in the order in which they are added. -/
def rowKinds : List String :=
  ["domains", "templates", "campaigns", "variants", "recipients", "bulk_recipients", "api_keys"]

def addRow (kind : String) (t : Tables) (j : Json) : Described Tables := do
  match kind with
  | "domains" => addDomain t j
  | "templates" => return t.addTemplate (← template j)
  | "campaigns" => return t.addCampaign (← campaign j)
  | "variants" => return t.addVariant (← variant j)
  | "recipients" => return t.addRecipients [← recipient j]
  | "bulk_recipients" => return t.addRecipients (← recipients j)
  | "api_keys" => return t.addKey (← apiKey j)
  | _ => throw .unreadable

def tablesOf (j : Json) : Described Tables := do
  let t ← rowKinds.foldlM (fun t kind => (j.listAt kind).foldlM (addRow kind) t) {}
  return (j.memberAt "variables").members.foldl
    (fun t (name, value) => t.setVariable name (value.str?.getD "")) t

/-- The mail servers of a description; of two with one name the later counts. -/
def stationsOf (j : Json) : Described (Registry × List Station) := do
  let rows ← (j.listAt "servers").mapM station
  let registry := rows.foldl (fun r row => r.register row.1) .empty
  let latest := rows.reverse.map Prod.snd
  return (registry,
    registry.servers.filterMap fun server => latest.find? fun s => s.name == server.name)

/-- A section of settings, with its defaults if it is missing. -/
def sectionAt {α : Type} (j : Json) (name : String) (f : Fields α) (absent : α) : Described α := do
  return (← optional (decode f.decoder) (j.memberAt name)).getD absent

def World.ofSetup (j : Json) : Described World := do
  let (registry, stations) ← stationsOf j
  let routing ← sectionAt j "routing" (RoutingSettings.fields .strict) {}
  let engine ← sectionAt j "engine" (EngineSettings.fields .strict) {}
  let tables ← tablesOf j
  let w : World :=
    { router := ⟨registry, routing⟩, engine := ⟨registry, engine⟩, tables, stations
      permits := max 1 engine.concurrency }
  return w

end Mailroom.Bench
