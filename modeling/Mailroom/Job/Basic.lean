import Mailroom.Json.Basic
import Mailroom.Routing.Strategy
import Mailroom.Timestamp
import Mailroom.Uuid

/-!
Send jobs and their items.  A job moves between statuses along fixed edges; its outcome is read off
the counts of its items.
-/

namespace Mailroom

inductive JobStatus where
  | draft
  | scheduled
  | running
  | paused
  | completed
  | failed
  | cancelled
deriving DecidableEq, Repr

instance : Vocabulary JobStatus where
  all := [.draft, .scheduled, .running, .paused, .completed, .failed, .cancelled]
  word
    | .draft => "draft"
    | .scheduled => "scheduled"
    | .running => "running"
    | .paused => "paused"
    | .completed => "completed"
    | .failed => "failed"
    | .cancelled => "cancelled"
  find_word s := by cases s <;> decide

namespace JobStatus

/-- Whether an operator or the engine may move a job from one status to another. -/
def canMoveTo : JobStatus → JobStatus → Bool
  | .draft, .scheduled | .draft, .running => true
  | .scheduled, .running | .scheduled, .cancelled => true
  | .running, .paused | .running, .completed | .running, .failed | .running, .cancelled => true
  | .paused, .running | .paused, .cancelled => true
  | .completed, .running | .failed, .running | .cancelled, .running => true
  | _, _ => false

/-- Whether a job has finished. -/
def isTerminal : JobStatus → Bool
  | .completed | .failed | .cancelled => true
  | _ => false

end JobStatus

inductive ItemStatus where
  | pending
  | queued
  | sent
  | failed
deriving DecidableEq, Repr

instance : Vocabulary ItemStatus where
  all := [.pending, .queued, .sent, .failed]
  word
    | .pending => "pending"
    | .queued => "queued"
    | .sent => "sent"
    | .failed => "failed"
  find_word s := by cases s <;> decide

structure JobStats where
  total : Int
  pending : Int
  queued : Int
  sent : Int
  failed : Int
deriving DecidableEq, Repr, Inhabited

namespace JobStats

def zero : JobStats := ⟨0, 0, 0, 0, 0⟩

/-- Counts with `n` more items of a status; a status that is none of the four counts in the total
only. -/
def add (s : JobStats) (status : Stored ItemStatus) (n : Int) : JobStats :=
  let s := { s with total := s.total + n }
  match status with
  | .known .pending => { s with pending := s.pending + n }
  | .known .queued => { s with queued := s.queued + n }
  | .known .sent => { s with sent := s.sent + n }
  | .known .failed => { s with failed := s.failed + n }
  | .other _ => s

/-- The counts that pairs of a status and a number add up to. -/
def ofCounts (counts : List (Stored ItemStatus × Int)) : JobStats :=
  counts.foldl (fun s (status, n) => s.add status n) zero

def ofStatuses (statuses : List (Stored ItemStatus)) : JobStats :=
  statuses.foldl (fun s status => s.add status 1) zero

/-- The outcome once nothing is pending: a job failed if something failed and nothing got
through. -/
def outcome (s : JobStats) : Option JobStatus :=
  if s.pending > 0 then none
  else if s.failed > 0 ∧ s.sent + s.queued = 0 then some .failed
  else some .completed

end JobStats

/-- A send job: a campaign on its way through some servers. -/
structure Job where
  id : Uuid
  campaignId : Uuid
  status : Stored JobStatus
  servers : Json
  strategy : Stored StrategyKind
  dryRunLimit : Option Int
  scheduledAt : Option Timestamp
  stats : JobStats
  createdAt : Timestamp
  updatedAt : Timestamp
  startedAt : Option Timestamp
  completedAt : Option Timestamp
deriving Inhabited

namespace Job

/-- The strategy of a job, taking turns if its name is unknown. -/
def strategyKind (j : Job) : StrategyKind :=
  match j.strategy with
  | .known kind => kind
  | .other text => (StrategyKind.parse? text).getD .roundRobin

/-- The servers of a job; a value that is no list of texts names none. -/
def serverNames (j : Job) : List String :=
  match j.servers with
  | .arr items => (items.mapM Json.str?).getD []
  | _ => []

end Job

/-- What a job is made from. -/
structure NewJob where
  campaignId : Uuid
  status : JobStatus
  servers : List String
  strategy : StrategyKind
  dryRunLimit : Option Int
  scheduledAt : Option Timestamp
deriving DecidableEq, Repr

/-- What a retry works on: the items that failed, or only those still pending. -/
inductive RetryAction where
  | failed
  | pending
deriving DecidableEq, Repr

instance : Vocabulary RetryAction where
  all := [.failed, .pending]
  word
    | .failed => "failed"
    | .pending => "pending"
  find_word s := by cases s <;> decide

/-- One message of a job: to whom, through which server, and what became of it. -/
structure Item where
  id : Uuid
  jobId : Uuid
  recipientId : Uuid
  variantId : Option Uuid
  server : String
  status : Stored ItemStatus
  remoteId : Option String
  lastError : Option String
  checkedAt : Option Timestamp
  createdAt : Timestamp
  updatedAt : Timestamp
deriving DecidableEq, Repr, Inhabited

/-- What an item is made from. -/
structure NewItem where
  recipientId : Uuid
  variantId : Option Uuid
  server : String
deriving DecidableEq, Repr

end Mailroom
