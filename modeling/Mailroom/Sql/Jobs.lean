import Mailroom.Sql.Dialogue
import Mailroom.Store.Call
import Mailroom.Store.Format

/-!
The dialogues about jobs and their items.  An item moves only from the status that a statement
names, so that of two moves from one status at most one finds the row.
-/

namespace Mailroom.Sql.Jobs

/-- Create a job and its items, all or nothing.  `fresh` gives the identifiers, the job's first. -/
def create (fresh : Nat → Uuid) (job : NewJob) (items : List NewItem) (now : Timestamp) :
    Dialogue Job :=
  .transaction do
    let created ← .selectOne (Row.read Job.fields)
      ("INSERT INTO send_jobs ( id, campaign_id, status, servers, strategy, dry_run_limit, " ++
       "scheduled_at, total, pending, created_at, updated_at, started_at ) " ++
       "VALUES ($1, $2, $3, $4, $5, $6, $7, $8, $8, $9, $9, $10) RETURNING *")
      [.id (fresh 0), .id job.campaignId, .text (Vocabulary.word job.status),
        .json (.ofStrings job.servers), .text (Vocabulary.word job.strategy),
        .ofOption .int job.dryRunLimit, .ofOption .time job.scheduledAt,
        .int (Int.ofNat items.length), .time now,
        if job.status = .running then .time now else .null]
    items.zipIdx.forM fun (item, n) => do
      let _ ← Dialogue.execute
        ("INSERT INTO send_job_items ( id, job_id, recipient_id, variant_id, server_name, " ++
         "status, created_at, updated_at ) VALUES ($1, $2, $3, $4, $5, 'pending', $6, $6)")
        [.id (fresh (n + 1)), .id (fresh 0), .id item.recipientId, .ofOption .id item.variantId,
          .text item.server, .time now]
    return created

def find? (id : Uuid) : Dialogue (Option Job) :=
  .selectFirst? (Row.read Job.fields) "SELECT * FROM send_jobs WHERE id = $1" [.id id]

/-- A page of jobs, the newest first, in one status or in any. -/
def page (status : Option JobStatus) (limit offset : Int) : Dialogue (Page Job) := do
  let status := Value.ofOption (fun s => .text (Vocabulary.word s)) status
  let items ← .select (Row.read Job.fields)
    ("SELECT * FROM send_jobs WHERE ($1::TEXT IS NULL OR status = $1) " ++
     "ORDER BY created_at DESC LIMIT $2 OFFSET $3")
    [status, .int limit, .int offset]
  return ⟨items,
    ← .count "SELECT COUNT(*) FROM send_jobs WHERE ($1::TEXT IS NULL OR status = $1)" [status]⟩

def inStatus (status : JobStatus) : Dialogue (List Job) :=
  .select (Row.read Job.fields)
    "SELECT * FROM send_jobs WHERE status = $1 ORDER BY created_at ASC"
    [.text (Vocabulary.word status)]

def due (now : Timestamp) : Dialogue (List Job) :=
  .select (Row.read Job.fields)
    ("SELECT * FROM send_jobs " ++
     "WHERE status = 'scheduled' AND (scheduled_at IS NULL OR scheduled_at <= $1) " ++
     "ORDER BY scheduled_at ASC NULLS FIRST")
    [.time now]

def move (id : Uuid) (sources : List JobStatus) (target : JobStatus) (now : Timestamp) :
    Dialogue (Option Job) :=
  .selectFirst? (Row.read Job.fields)
    ("UPDATE send_jobs SET status = $3, updated_at = $4, " ++
     "started_at = CASE WHEN $3 = 'running' THEN COALESCE(started_at, $4) ELSE started_at END, " ++
     "completed_at = CASE WHEN $3 IN ('completed', 'failed', 'cancelled') THEN $4 " ++
     "WHEN $3 = 'running' THEN NULL ELSE completed_at END " ++
     "WHERE id = $1 AND status = ANY($2) RETURNING *")
    [.id id, .texts (sources.map Vocabulary.word), .text (Vocabulary.word target), .time now]

def pendingItems (job : Uuid) (limit : Int) : Dialogue (List Item) :=
  .select (Row.read Item.fields)
    ("SELECT * FROM send_job_items WHERE job_id = $1 AND status = 'pending' " ++
     "ORDER BY created_at ASC, id ASC LIMIT $2")
    [.id job, .int limit]

/-- Some queued items, those that have not been checked for longest first. -/
def queuedItems (limit : Int) : Dialogue (List Item) :=
  .select (Row.read Item.fields)
    ("SELECT * FROM send_job_items WHERE status = 'queued' AND remote_message_id IS NOT NULL " ++
     "ORDER BY last_checked_at ASC NULLS FIRST, updated_at ASC LIMIT $1")
    [.int limit]

/-- Record that items are about to be checked; of no items nothing is said. -/
def checkItems (ids : List Uuid) (now : Timestamp) : Dialogue Unit := do
  if ids.isEmpty then return
  let _ ← Dialogue.execute "UPDATE send_job_items SET last_checked_at = $2 WHERE id = ANY($1)"
    [.ids ids, .time now]

def item? (id : Uuid) : Dialogue (Option Item) :=
  .selectFirst? (Row.read Item.fields) "SELECT * FROM send_job_items WHERE id = $1" [.id id]

def queueItem (id : Uuid) (remoteId : String) (now : Timestamp) : Dialogue Bool :=
  .affectsAny
    ("UPDATE send_job_items SET status = 'queued', remote_message_id = $2, last_error = NULL, " ++
     "updated_at = $3 WHERE id = $1 AND status = 'pending'")
    [.id id, .text remoteId, .time now]

def failItem (id : Uuid) (source : ItemStatus) (error : String) (now : Timestamp) :
    Dialogue Bool :=
  .affectsAny
    ("UPDATE send_job_items SET status = 'failed', last_error = $3, updated_at = $4 " ++
     "WHERE id = $1 AND status = $2")
    [.id id, .text (Vocabulary.word source), .text error, .time now]

def confirmItem (id : Uuid) (now : Timestamp) : Dialogue Bool :=
  .affectsAny
    "UPDATE send_job_items SET status = 'sent', updated_at = $2 WHERE id = $1 AND status = 'queued'"
    [.id id, .time now]

def resetFailed (job : Uuid) (now : Timestamp) : Dialogue Nat :=
  .execute
    ("UPDATE send_job_items SET status = 'pending', last_error = NULL, " ++
     "remote_message_id = NULL, last_checked_at = NULL, updated_at = $2 " ++
     "WHERE job_id = $1 AND status = 'failed'")
    [.id job, .time now]

def statusCount (row : Row) : Except String (Stored ItemStatus × Int) := do
  return (← Row.cell 0 "status" .stored row, ← Row.cell 1 "count" .int64 row)

/-- Count the items of a job by status, and write the counts into the job. -/
def refreshStats (job : Uuid) (now : Timestamp) : Dialogue JobStats := do
  let counts ← .select statusCount
    "SELECT status, COUNT(*) FROM send_job_items WHERE job_id = $1 GROUP BY status" [.id job]
  let stats := JobStats.ofCounts counts
  let _ ← Dialogue.execute
    ("UPDATE send_jobs SET total = $2, pending = $3, queued = $4, sent = $5, failed = $6, " ++
     "updated_at = $7 WHERE id = $1")
    [.id job, .int stats.total, .int stats.pending, .int stats.queued, .int stats.sent,
      .int stats.failed, .time now]
  return stats

end Mailroom.Sql.Jobs
