import Mailroom.Store.Tables

/-!
Jobs and their items in the store in memory.  Every change of a status is guarded by the statuses
that it may start from.
-/

namespace Mailroom.Tables

def newItems (job : Uuid) (now : Timestamp) : (serial : Nat) → List NewItem → List Item
  | _, [] => []
  | serial, n :: rest =>
      ⟨.issued serial, job, n.recipientId, n.variantId, n.server, .known .pending, none, none, none,
        now, now⟩ :: newItems job now (serial + 1) rest

def createJob (t : Tables) (n : NewJob) (items : List NewItem) (now : Timestamp) : Job × Tables :=
  let total := Int.ofNat items.length
  let j : Job :=
    { id := .issued t.issued, campaignId := n.campaignId, status := .known n.status
      servers := .ofStrings n.servers, strategy := .known n.strategy, dryRunLimit := n.dryRunLimit
      scheduledAt := n.scheduledAt, stats := ⟨total, total, 0, 0, 0⟩, createdAt := now
      updatedAt := now, startedAt := if n.status = .running then some now else none
      completedAt := none }
  (j,
    { t with
      jobs := t.jobs ++ [j]
      items := t.items ++ newItems j.id now (t.issued + 1) items
      issued := t.issued + 1 + items.length })

def job? (t : Tables) (id : Uuid) : Option Job := t.jobs.find? fun j => j.id == id

def updateJob (t : Tables) (id : Uuid) (change : Job → Job) : Tables :=
  { t with jobs := updateFirst (fun j => j.id == id) change t.jobs }

/-- Whether a job was created before another or is the same; identifiers decide between equal
times. -/
def createdBefore (a b : Job) : Bool :=
  a.createdAt.lt b.createdAt || (a.createdAt == b.createdAt && a.id.number ≤ b.id.number)

def jobsIn (t : Tables) (status : JobStatus) : List Job :=
  (t.jobs.filter fun j => j.status == .known status).mergeSort createdBefore

def newestJobs (t : Tables) (status : Option JobStatus) : List Job :=
  (t.jobs.filter fun j =>
    match status with
    | some s => j.status == .known s
    | none => true).mergeSort fun a b => createdBefore b a

def isDue (now : Timestamp) (j : Job) : Bool :=
  j.status == .known .scheduled &&
    match j.scheduledAt with
    | some time => time.le now
    | none => true

/-- A job in a new status: running for the first time it starts, and finished it completes. -/
def movedTo (status : JobStatus) (now : Timestamp) (j : Job) : Job :=
  { j with
    status := .known status
    updatedAt := now
    startedAt := if status = .running then j.startedAt.or (some now) else j.startedAt
    completedAt :=
      if status = .running then none else if status.isTerminal then some now else j.completedAt }

def canLeave (sources : List JobStatus) (j : Job) : Bool :=
  match j.status.value? with
  | some status => sources.contains status
  | none => false

def moveJob (t : Tables) (id : Uuid) (sources : List JobStatus) (target : JobStatus)
    (now : Timestamp) : Option Job × Tables :=
  match (t.job? id).filter (canLeave sources) with
  | none => (none, t)
  | some j => (some (movedTo target now j), t.updateJob id (movedTo target now))

def itemsOf (t : Tables) (job : Uuid) : List Item := t.items.filter fun i => i.jobId == job

def pendingItems (t : Tables) (job : Uuid) (limit : Int) : List Item :=
  (t.items.filter fun i => i.jobId == job && i.status == .known .pending).take limit.toNat

def isAwaiting (i : Item) : Bool := i.status == .known .queued && i.remoteId.isSome

/-- The order of instants that may be missing: a missing one comes first. -/
def noLater : Option Timestamp → Option Timestamp → Bool
  | none, _ => true
  | some _, none => false
  | some a, some b => a.le b

/-- The order in which items are checked: the one checked longest ago first. -/
def checkedBefore (a b : Item) : Bool :=
  if a.checkedAt = b.checkedAt then a.updatedAt.le b.updatedAt else noLater a.checkedAt b.checkedAt

def queuedItems (t : Tables) (limit : Int) : List Item :=
  ((t.items.filter isAwaiting).mergeSort checkedBefore).take limit.toNat

def checkItems (t : Tables) (ids : List Uuid) (now : Timestamp) : Tables :=
  { t with
    items :=
      t.items.map fun i => if ids.contains i.id then { i with checkedAt := some now } else i }

def item? (t : Tables) (id : Uuid) : Option Item := t.items.find? fun i => i.id == id

def isItemIn (id : Uuid) (status : ItemStatus) (i : Item) : Bool :=
  i.id == id && i.status == .known status

/-- Change an item if it is in a status; the reply says whether it was. -/
def moveItem (t : Tables) (id : Uuid) (source : ItemStatus) (change : Item → Item)
    (now : Timestamp) : Bool × Tables :=
  if t.items.any (isItemIn id source) then
    (true,
      { t with
        items :=
          updateFirst (isItemIn id source) (fun i => { change i with updatedAt := now }) t.items })
  else (false, t)

def queueItem (t : Tables) (id : Uuid) (remoteId : String) (now : Timestamp) : Bool × Tables :=
  t.moveItem id .pending
    (fun i => { i with status := .known .queued, remoteId := some remoteId, lastError := none }) now

def failItem (t : Tables) (id : Uuid) (source : ItemStatus) (error : String) (now : Timestamp) :
    Bool × Tables :=
  t.moveItem id source (fun i => { i with status := .known .failed, lastError := some error }) now

def confirmItem (t : Tables) (id : Uuid) (now : Timestamp) : Bool × Tables :=
  t.moveItem id .queued (fun i => { i with status := .known .sent }) now

def forceItem (t : Tables) (id : Uuid) (status : ItemStatus) : Tables :=
  { t with
    items :=
      updateFirst (fun i => i.id == id) (fun i => { i with status := .known status }) t.items }

def isFailure (job : Uuid) (i : Item) : Bool := i.jobId == job && i.status == .known .failed

def renewed (now : Timestamp) (i : Item) : Item :=
  { i with
    status := .known .pending
    lastError := none
    remoteId := none
    checkedAt := none
    updatedAt := now }

/-- Make the failed items of a job pending again, and say how many there were. -/
def resetFailed (t : Tables) (job : Uuid) (now : Timestamp) : Nat × Tables :=
  (t.items.countP (isFailure job),
    { t with items := t.items.map fun i => if isFailure job i then renewed now i else i })

def statsOf (t : Tables) (job : Uuid) : JobStats := .ofStatuses ((t.itemsOf job).map Item.status)

def refreshStats (t : Tables) (job : Uuid) (now : Timestamp) : JobStats × Tables :=
  let stats := t.statsOf job
  (stats, t.updateJob job fun j => { j with stats, updatedAt := now })

end Mailroom.Tables
