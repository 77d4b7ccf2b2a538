import Mailroom.Program

/-!
What operators do to jobs: looking at them, pausing, resuming, cancelling and retrying.
-/

namespace Mailroom.JobControl

def get (id : Uuid) : Service JobError Job := do
  Service.found (.notFound id) (← Service.store (.job id))

/-- A page of jobs, newest first. -/
def list (status : Option JobStatus) (limit offset : Int) : Service JobError (Page Job) :=
  Service.store (.jobs status limit offset)

/-- A move of a job by an operator: from where, to where, and what it is called. -/
structure Move where
  sources : List JobStatus
  target : JobStatus
  name : String
deriving DecidableEq, Repr

namespace Move

def pause : Move := ⟨[.running], .paused, "pause"⟩

def resume : Move := ⟨[.paused], .running, "resume"⟩

def cancel : Move := ⟨[.scheduled, .running, .paused], .cancelled, "cancel"⟩

def retry : Move := ⟨[.paused, .completed, .failed, .cancelled], .running, "retry"⟩

/-- The status of a job, if the move may be made from it. -/
def check (m : Move) (j : Job) : Except JobError JobStatus :=
  match j.status.value? with
  | none =>
      .error (.invalidRequest ("job " ++ j.id.display ++ " has unknown status " ++ j.status.text))
  | some status =>
      if m.sources.contains status && status.canMoveTo m.target then .ok status
      else .error (.invalidTransition status m.name)

/-- Make a move; another operator or the engine may have been faster. -/
def make (m : Move) (id : Uuid) : Service JobError Job := do
  let j ← get id
  let status ← liftExcept (m.check j)
  match ← Service.store (.moveJob id m.sources m.target) with
  | some moved => return moved
  | none => do
      let j ← get id
      throw (.invalidTransition (j.status.value?.getD status) m.name)

end Move

def pause (id : Uuid) : Service JobError Job := Move.pause.make id

def resume (id : Uuid) : Service JobError Job := Move.resume.make id

def cancel (id : Uuid) : Service JobError Job := Move.cancel.make id

/-- Put a stopped job back to running, with its failed items pending again if they are to be tried
once more. -/
def retry (id : Uuid) (action : RetryAction) : Service JobError Job := do
  let j ← get id
  let _ ← liftExcept (Move.retry.check j)
  if action = .failed then
    let _ ← Service.store (.resetFailed id)
  let _ ← Move.retry.make id
  let _ ← Service.store (.refreshStats id)
  get id

end Mailroom.JobControl
