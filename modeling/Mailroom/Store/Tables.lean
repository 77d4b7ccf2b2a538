import Mailroom.Bindings
import Mailroom.Store.Rows
import Mailroom.Domain.Patch

/-!
The tables of the store in memory and the rows other than those of jobs: domains with their
deployments, direct sends, keys, content and variables.  Rows stand in the order in which they were
added; a row that replaces another takes its place.
-/

namespace Mailroom

/-- All tables, and how many identifiers have been given out. -/
structure Tables where
  domains : List Domain := []
  deployments : List Deployment := []
  jobs : List Job := []
  items : List Item := []
  sends : List SendRecord := []
  keys : List ApiKey := []
  templates : List Template := []
  campaigns : List Campaign := []
  variants : List Variant := []
  recipients : List Recipient := []
  globals : Dictionary := .empty
  issued : Nat := 0
deriving Inhabited

namespace Tables

/-- The first row that passes a test, changed. -/
def updateFirst {α : Type} (test : α → Bool) (change : α → α) : List α → List α
  | [] => []
  | row :: rows => if test row then change row :: rows else row :: updateFirst test change rows

def addDomain (t : Tables) (d : Domain) : Tables :=
  { t with domains := putBy Domain.id d t.domains }

def addKey (t : Tables) (k : ApiKey) : Tables := { t with keys := t.keys ++ [k] }

def addTemplate (t : Tables) (template : Template) : Tables :=
  { t with templates := putBy Template.id template t.templates }

def addCampaign (t : Tables) (c : Campaign) : Tables :=
  { t with campaigns := putBy Campaign.id c t.campaigns }

def addVariant (t : Tables) (v : Variant) : Tables := { t with variants := t.variants ++ [v] }

def addRecipients (t : Tables) (rs : List Recipient) : Tables :=
  { t with recipients := t.recipients ++ rs }

def setVariable (t : Tables) (name value : String) : Tables :=
  { t with globals := t.globals.insert name value }

/-- The place of a deployment in its domain; names decide between equal positions. -/
def deployedBefore (a b : Deployment) : Bool :=
  a.position < b.position || (a.position == b.position && a.server ≤ b.server)

def deploymentsOf (t : Tables) (domain : Uuid) : List Deployment :=
  (t.deployments.filter fun d => d.domainId == domain).mergeSort deployedBefore

/-- The domain of a name, in any case, with its deployments. -/
def domainByName (t : Tables) (name : String) : Option DomainConfig :=
  (t.domains.find? fun d => d.name == Text.lowered name).map fun d => ⟨d, t.deploymentsOf d.id⟩

def domainsByName (t : Tables) : List Domain := t.domains.mergeSort fun a b => a.name ≤ b.name

def updateDomain (t : Tables) (id : Uuid) (patch : DomainPatch) (now : Timestamp) :
    Option Domain × Tables :=
  match t.domains.find? fun d => d.id == id with
  | none => (none, t)
  | some d =>
      (some (patch.apply now d),
        { t with domains := updateFirst (fun d => d.id == id) (patch.apply now) t.domains })

/-- Whether a deployment is the one of a domain on a server. -/
def isDeployment (domain : Uuid) (server : String) (d : Deployment) : Bool :=
  d.domainId == domain && d.server == server

/-- The position behind all deployments of a domain. -/
def nextPosition (t : Tables) (domain : Uuid) : Int :=
  (t.deployments.filter fun d => d.domainId == domain).foldl (fun n d => max n (d.position + 1)) 0

/-- A deployment after another attempt: the hash changes only if a new one is given. -/
def redeployed (status : DeploymentStatus) (hash error : Option String) (now : Timestamp)
    (d : Deployment) : Deployment :=
  { d with
    status := .known status
    deployedHash := hash.or d.deployedHash
    lastError := error
    deployedAt := if status = .deployed then some now else d.deployedAt }

def putDeployment (t : Tables) (domain : Uuid) (server : String) (status : DeploymentStatus)
    (hash error : Option String) (now : Timestamp) : Deployment × Tables :=
  match t.deployments.find? (isDeployment domain server) with
  | some d =>
      (redeployed status hash error now d,
        { t with
          deployments :=
            updateFirst (isDeployment domain server) (redeployed status hash error now)
              t.deployments })
  | none =>
      let d : Deployment :=
        ⟨.issued t.issued, domain, server, .known status, hash, t.nextPosition domain, error,
          if status = .deployed then some now else none⟩
      (d, { t with deployments := t.deployments ++ [d], issued := t.issued + 1 })

/-- Forget a deployment; the reply says whether there was one. -/
def dropDeployment (t : Tables) (domain : Uuid) (server : String) : Bool × Tables :=
  (t.deployments.any (isDeployment domain server),
    { t with deployments := t.deployments.filter fun d => !isDeployment domain server d })

/-- Whether a deployment holds other settings than those of a hash. -/
def isStale (domain : Uuid) (hash : String) (d : Deployment) : Bool :=
  d.domainId == domain && d.status == .known .deployed && d.deployedHash != some hash

/-- Mark the deployments of a domain that hold other settings. -/
def markOutdated (t : Tables) (domain : Uuid) (hash : String) : Nat × Tables :=
  (t.deployments.countP (isStale domain hash),
    { t with
      deployments := t.deployments.map fun d =>
        if isStale domain hash d then { d with status := .known .outdated } else d })

def createSend (t : Tables) (n : NewSend) (now : Timestamp) : SendRecord × Tables :=
  let s : SendRecord :=
    ⟨.issued t.issued, n.keyId, n.sender, n.recipient, n.domain, n.server, .known .pending, none,
      none, now, now⟩
  (s, { t with sends := t.sends ++ [s], issued := t.issued + 1 })

def send? (t : Tables) (id : Uuid) : Option SendRecord := t.sends.find? fun s => s.id == id

def finished (status : SendStatus) (remoteId error : Option String) (now : Timestamp)
    (s : SendRecord) : SendRecord :=
  { s with status := .known status, remoteId, lastError := error, updatedAt := now }

/-- Record the outcome of a direct send, once. -/
def finishSend (t : Tables) (id : Uuid) (status : SendStatus) (remoteId error : Option String)
    (now : Timestamp) : Option SendRecord × Tables :=
  match (t.send? id).filter fun s => s.status == .known .pending with
  | none => (none, t)
  | some s =>
      (some (finished status remoteId error now s),
        { t with
          sends := updateFirst (fun s => s.id == id) (finished status remoteId error now) t.sends })

/-- How many keys are looked at for one lead. -/
def keyLimit : Nat := 10

/-- The keys of a lead that are still valid, but no more than the limit. -/
def keysByLead (t : Tables) (lead : String) (now : Timestamp) : List ApiKey :=
  (t.keys.filter fun k => k.lead == lead && !k.isExpired now).take keyLimit

def touchKey (t : Tables) (id : Uuid) (now : Timestamp) : Tables :=
  { t with
    keys := updateFirst (fun k => k.id == id) (fun k => { k with lastUsedAt := some now }) t.keys }

def recipientsOf (t : Tables) (list : Uuid) : List Recipient :=
  t.recipients.filter fun r => r.listId == list

def variantsOf (t : Tables) (campaign : Uuid) : List Variant :=
  t.variants.filter fun v => v.campaignId == campaign

end Tables

end Mailroom
