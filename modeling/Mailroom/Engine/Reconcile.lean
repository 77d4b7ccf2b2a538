import Mailroom.Engine.Report
import Mailroom.Program

/-!
Reconciling: asking the servers what became of queued items, and revising the outcome of finished
jobs when the answers change it.
-/

namespace Mailroom.Engine

/-- The error of an item that its server gave up. -/
def refusal (r : RemoteStatus) : String := r.lastError.getD ("remote status " ++ r.status)

/-- Whether a write found its row; one that failed did not. -/
def wrote : Except Failure Bool → Bool
  | .ok found => found
  | .error _ => false

/-- Record what a server says about an item; the answer says whether the item moved. -/
def recordStatus (i : Item) (r : RemoteStatus) : Program Bool :=
  match r.itemStatus? with
  | some .sent => do return wrote (← Program.request (.store (.confirmItem i.id)))
  | some _ => do
      return wrote (← Program.request (.store (.failItem i.id .queued (refusal r))))
  | none => return false

/-- Ask an item's server about it; the answer says whether the item moved. -/
def reconcileItem (e : Engine) (i : Item) : Program Bool :=
  match i.remoteId with
  | none => return false
  | some remoteId =>
      if e.registry.contains i.server then do
        match ← Program.request (.mta i.server (.status remoteId)) with
        | .ok r => recordStatus i r
        | .error _ => return false
      else return false

/-- The outcome that a finished job should have instead of its own. -/
def revisedOutcome? (j : Job) (stats : JobStats) : Option (JobStatus × JobStatus) := do
  let current ← j.status.value?
  let outcome ← stats.outcome
  if (current = .completed ∨ current = .failed) ∧ outcome ≠ current then some (current, outcome)
  else none

/-- Bring the counts of a job up to date, and its outcome if it has finished; the answer says
whether the outcome changed. -/
def reevaluate (id : Uuid) : Service String Bool := do
  let stats ← Service.store (.refreshStats id)
  match (← Service.store (.job id)).bind fun j => revisedOutcome? j stats with
  | none => return false
  | some (current, outcome) =>
      return (← Service.store (.moveJob id [current] outcome)).isSome

/-- Reevaluate some jobs in turn, and count those whose outcome changed. -/
def reevaluateAll : List Uuid → Program Nat
  | [] => return 0
  | id :: rest => do
      let changed ← (reevaluate id).run
      let more ← reevaluateAll rest
      return (if changed.toOption = some true then 1 else 0) + more

def distinct : List Uuid → List Uuid
  | [] => []
  | id :: rest => id :: (distinct rest).filter fun other => other != id

/-- Check some queued items side by side.  They are stamped first, so that items still on their way
go to the back. -/
def reconcileItems (e : Engine) (items : List Item) : Service String TickReport := do
  Service.store (.checkItems (items.map Item.id))
  let moved ← ExceptT.lift (.forEach .permitted items e.reconcileItem)
  let jobs := ((items.zip moved).filter Prod.snd).map fun p => p.1.jobId
  let finished ← ExceptT.lift (reevaluateAll (distinct jobs))
  return { reconciled := jobs.length, finished }

def reconcile (e : Engine) : Service String TickReport := do
  let items ← Service.store (.queuedItems e.settings.reconcileBatchSize)
  if items.isEmpty then return {} else e.reconcileItems items

end Mailroom.Engine
