import Mailroom.Engine.Dispatch
import Mailroom.Engine.Reconcile

/-!
One tick of the engine: due jobs are promoted, queued items are reconciled, and every running job is
taken one batch further.  What goes wrong in one part does not keep the others from being done.
-/

namespace Mailroom.Engine

/-- Promote some jobs in turn, and count those that moved. -/
def promoteAll : List Job → Service String Nat
  | [] => return 0
  | j :: rest => do
      let moved ← Service.store (.moveJob j.id [.scheduled] .running)
      return (if moved.isSome then 1 else 0) + (← promoteAll rest)

def promote : Service String TickReport := do
  let due ← Service.store (.dueJobs (← Service.request .now))
  return { promoted := ← promoteAll due }

/-- The jobs to begin with: all of them, unless the engine is to stop. -/
def unlessStopping : List Job → Program (List Job)
  | [] => return []
  | j :: rest => do
      if ← Program.request .stopping then return []
      return j :: (← unlessStopping rest)

/-- Take every running job one batch further, side by side. -/
def driveAll (e : Engine) : Service String TickReport := do
  let jobs ← Service.store (.jobsIn .running)
  let begun ← ExceptT.lift (unlessStopping jobs)
  let reports ← ExceptT.lift (.forEach .free begun fun j => (e.drive j).run)
  return .sum (reports.map fun r => r.toOption.getD {})

/-- The report of a part, empty if it went wrong. -/
def reported (part : Service String TickReport) : Program TickReport := do
  return (← part.run).toOption.getD {}

def tick (e : Engine) : Program TickReport := do
  let promoted ← reported promote
  let reconciled ← reported e.reconcile
  let driven ← reported e.driveAll
  return (promoted.add reconciled).add driven

end Mailroom.Engine
