import Mailroom.Content.Resolve
import Mailroom.Engine.Report

/-!
Dispatching: sending the pending items of a running job.  What a server took must never be sent
again, so an item that could not be recorded as queued is kept in mind until it is.
-/

namespace Mailroom.Engine

def jobHeader : String := "X-Relaymail-Job"

def itemHeader : String := "X-Relaymail-Item"

/-- Where an item ended up; an unrecorded one was taken without a record of it. -/
inductive ItemOutcome where
  | queued
  | failed
  | unrecorded
deriving DecidableEq, Repr

def ItemOutcome.report : ItemOutcome → TickReport
  | queued => { queued := 1 }
  | failed => { failed := 1 }
  | unrecorded => { unrecorded := 1 }

/-- How often a queued status is written at most. -/
def recordAttempts : Nat := 3

/-- The pause after the failure of a write, in milliseconds. -/
def retryPause (attempt : Nat) : Nat := 50 * attempt

/-- Write the queued status of an item, with `more` attempts after this one. -/
def writeQueued (id : Uuid) (remoteId : String) : (more attempt : Nat) →
    Program (Except Failure Bool)
  | 0, _ => Program.request (.store (.queueItem id remoteId))
  | more + 1, attempt => do
      match ← Program.request (.store (.queueItem id remoteId)) with
      | .ok found => return .ok found
      | .error _ => do
          Program.request (.sleep (retryPause attempt))
          writeQueued id remoteId more (attempt + 1)

/-- Record that a server took an item, or keep it in mind. -/
def recordQueued (id : Uuid) (remoteId : String) : Program ItemOutcome := do
  match ← writeQueued id remoteId (recordAttempts - 1) 1 with
  | .ok found => do
      Program.request (.dropAccepted id)
      return if found then .queued else .unrecorded
  | .error _ => do
      Program.request (.keepAccepted id remoteId)
      return .unrecorded

/-- Record the items that are known to be taken, in turn; what is left has yet to be sent. -/
def recordKnown (known : List (Uuid × String)) : List Item → Program (List Item × TickReport)
  | [] => return ([], {})
  | i :: rest =>
      match known.lookup i.id with
      | none => do
          let (left, report) ← recordKnown known rest
          return (i :: left, report)
      | some remoteId => do
          let outcome ← recordQueued i.id remoteId
          let (left, report) ← recordKnown known rest
          return (left, outcome.report.add report)

/-- What the items of a job have in common. -/
structure JobContext where
  campaign : Campaign
  variants : List Variant
  globals : Dictionary

def loadContext (j : Job) : Service String JobContext := do
  let campaign ← Service.found ("campaign " ++ j.campaignId.display ++ " not found")
    (← Service.store (.campaign j.campaignId))
  let variants ← Service.store (.variants campaign.id)
  return ⟨campaign, variants, ← Content.globals⟩

/-- The variant of an item; of two with one identifier the later counts. -/
def JobContext.variantOf (c : JobContext) (i : Item) : Option Variant :=
  i.variantId.bind fun id => c.variants.reverse.find? fun v => v.id == id

def JobContext.content (c : JobContext) (i : Item) (r : Recipient) :
    Service String RenderedContent :=
  (Content.resolve (.forCampaign c.campaign (c.variantOf i))
    ⟨some c.globals, c.campaign.values.toDictionary, r.values.toDictionary, some r.email,
      r.name⟩).adapt DispatchError.message

def JobContext.message (c : JobContext) (i : Item) (r : Recipient) (content : RenderedContent) :
    Message :=
  ⟨c.campaign.sender, r.email, c.campaign.replyTo, content.subject, content.html, content.text,
    .ofList [(jobHeader, i.jobId.display), (itemHeader, i.id.display)]⟩

def sendItem (e : Engine) (c : JobContext) (i : Item) : Service String String := do
  let r ← Service.found ("recipient " ++ i.recipientId.display ++ " not found")
    (← Service.store (.recipient i.recipientId))
  let content ← c.content i r
  if ¬ e.registry.contains i.server then throw ("server " ++ i.server ++ " is not configured")
  match ← Service.mta i.server (.submit (c.message i r content)) with
  | .ok remoteId => return remoteId
  | .error error => throw ("delivery via " ++ i.server ++ " failed: " ++ error.message)

/-- Send an item if its job's content could be loaded. -/
def attempt (e : Engine) (context : Except String JobContext) (i : Item) :
    Program (Except String String) :=
  match context with
  | .ok c => (e.sendItem c i).run
  | .error text => return .error text

def dispatchItem (e : Engine) (context : Except String JobContext) (i : Item) :
    Program ItemOutcome := do
  match ← e.attempt context i with
  | .ok remoteId => recordQueued i.id remoteId
  | .error text => do
      let _ ← Program.request (.store (.failItem i.id .pending text))
      return .failed

/-- Finish a job that has no pending items, if nothing has become pending again. -/
def finish (j : Job) : Service String TickReport := do
  match (← Service.store (.refreshStats j.id)).outcome with
  | none => return {}
  | some outcome =>
      let moved ← Service.store (.moveJob j.id [.running] outcome)
      return { finished := if moved.isSome then 1 else 0 }

/-- Send the items of a job that are left when those known to be taken have been recorded. -/
def sendLeft (e : Engine) (j : Job) (left : List Item) (recorded : TickReport) :
    Service String TickReport := do
  if left.isEmpty then
    let _ ← Service.store (.refreshStats j.id)
    return recorded
  else
    let context ← ExceptT.lift (loadContext j).run
    let outcomes ← ExceptT.lift (.forEach .permitted left (e.dispatchItem context))
    let _ ← Service.store (.refreshStats j.id)
    return recorded.add (.sum (outcomes.map ItemOutcome.report))

def driveItems (e : Engine) (j : Job) (items : List Item) : Service String TickReport := do
  let known ← Service.request .accepted
  let (left, recorded) ← ExceptT.lift (recordKnown known items)
  e.sendLeft j left recorded

/-- Take a running job one batch further. -/
def drive (e : Engine) (j : Job) : Service String TickReport := do
  let items ← Service.store (.pendingItems j.id e.settings.batchSize)
  if items.isEmpty then finish j else e.driveItems j items

end Mailroom.Engine
