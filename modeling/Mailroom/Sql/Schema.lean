import Mailroom.Digest.Sha2
import Mailroom.Sql.Dialogue

/-!
The schema of the store in a database, and its migrations.  A migration is known by its version and
by a digest of its script; one that has been applied is neither applied again nor changed.
-/

namespace Mailroom.Sql

structure Migration where
  version : Int
  name : String
  script : String
deriving DecidableEq, Repr

def Migration.digest (m : Migration) : String := Digest.sha384Hex m.script

/-- The tables and their indexes. -/
def initialScript : String :=
  "-- Sender domains and their per-server deployments

CREATE TABLE domains (
    id UUID PRIMARY KEY,
    name TEXT NOT NULL UNIQUE,
    delivery_mode TEXT NOT NULL DEFAULT 'production',
    redirect_to TEXT,
    bcc_to TEXT,
    dkim_selector TEXT,
    dkim_enabled BOOLEAN NOT NULL DEFAULT FALSE,
    rate_limit_per_minute INTEGER NOT NULL DEFAULT 0,
    rate_limit_per_hour INTEGER NOT NULL DEFAULT 0,
    config_hash TEXT NOT NULL DEFAULT '',
    created_at TIMESTAMPTZ NOT NULL DEFAULT NOW(),
    updated_at TIMESTAMPTZ NOT NULL DEFAULT NOW()
);

CREATE TABLE domain_deployments (
    id UUID PRIMARY KEY,
    domain_id UUID NOT NULL REFERENCES domains(id) ON DELETE CASCADE,
    server_name TEXT NOT NULL,
    status TEXT NOT NULL,
    deployed_hash TEXT,
    position INTEGER NOT NULL DEFAULT 0,
    last_error TEXT,
    deployed_at TIMESTAMPTZ,
    UNIQUE (domain_id, server_name)
);

-- API keys

CREATE TABLE api_keys (
    id UUID PRIMARY KEY,
    name TEXT NOT NULL,
    key_hash TEXT NOT NULL,
    key_prefix TEXT NOT NULL,
    scopes JSONB NOT NULL DEFAULT '[]',
    allowed_domains JSONB NOT NULL DEFAULT '[]',
    rate_limit_per_minute INTEGER NOT NULL DEFAULT 0,
    rate_limit_per_hour INTEGER NOT NULL DEFAULT 0,
    expires_at TIMESTAMPTZ,
    last_used_at TIMESTAMPTZ,
    created_at TIMESTAMPTZ NOT NULL DEFAULT NOW()
);

CREATE INDEX idx_api_keys_prefix ON api_keys(key_prefix);

-- Content

CREATE TABLE templates (
    id UUID PRIMARY KEY,
    name TEXT NOT NULL UNIQUE,
    subject TEXT NOT NULL,
    html_body TEXT,
    text_body TEXT,
    created_at TIMESTAMPTZ NOT NULL DEFAULT NOW(),
    updated_at TIMESTAMPTZ NOT NULL DEFAULT NOW()
);

CREATE TABLE global_variables (
    key TEXT PRIMARY KEY,
    value TEXT NOT NULL
);

CREATE TABLE recipients (
    id UUID PRIMARY KEY,
    recipient_list_id UUID NOT NULL,
    email TEXT NOT NULL,
    name TEXT,
    variables JSONB NOT NULL DEFAULT '\x7b\x7d',
    created_at TIMESTAMPTZ NOT NULL DEFAULT NOW()
);

CREATE INDEX idx_recipients_list ON recipients(recipient_list_id, created_at, id);

CREATE TABLE campaigns (
    id UUID PRIMARY KEY,
    name TEXT NOT NULL,
    from_address TEXT NOT NULL,
    reply_to TEXT,
    template_id UUID REFERENCES templates(id),
    subject TEXT,
    html_body TEXT,
    text_body TEXT,
    variables JSONB NOT NULL DEFAULT '\x7b\x7d',
    recipient_list_id UUID NOT NULL,
    created_at TIMESTAMPTZ NOT NULL DEFAULT NOW(),
    updated_at TIMESTAMPTZ NOT NULL DEFAULT NOW()
);

CREATE TABLE campaign_variants (
    id UUID PRIMARY KEY,
    campaign_id UUID NOT NULL REFERENCES campaigns(id) ON DELETE CASCADE,
    name TEXT NOT NULL,
    weight INTEGER NOT NULL DEFAULT 1,
    template_id UUID REFERENCES templates(id),
    subject TEXT,
    html_body TEXT,
    text_body TEXT
);

-- Send jobs

CREATE TABLE send_jobs (
    id UUID PRIMARY KEY,
    campaign_id UUID NOT NULL REFERENCES campaigns(id),
    status TEXT NOT NULL,
    servers JSONB NOT NULL DEFAULT '[]',
    strategy TEXT NOT NULL DEFAULT 'round_robin',
    dry_run_limit INTEGER,
    scheduled_at TIMESTAMPTZ,
    total BIGINT NOT NULL DEFAULT 0,
    pending BIGINT NOT NULL DEFAULT 0,
    queued BIGINT NOT NULL DEFAULT 0,
    sent BIGINT NOT NULL DEFAULT 0,
    failed BIGINT NOT NULL DEFAULT 0,
    created_at TIMESTAMPTZ NOT NULL DEFAULT NOW(),
    updated_at TIMESTAMPTZ NOT NULL DEFAULT NOW(),
    started_at TIMESTAMPTZ,
    completed_at TIMESTAMPTZ
);

CREATE INDEX idx_send_jobs_status ON send_jobs(status, scheduled_at);

CREATE TABLE send_job_items (
    id UUID PRIMARY KEY,
    job_id UUID NOT NULL REFERENCES send_jobs(id) ON DELETE CASCADE,
    recipient_id UUID NOT NULL,
    variant_id UUID,
    server_name TEXT NOT NULL,
    status TEXT NOT NULL DEFAULT 'pending',
    remote_message_id TEXT,
    last_error TEXT,
    last_checked_at TIMESTAMPTZ,
    created_at TIMESTAMPTZ NOT NULL DEFAULT NOW(),
    updated_at TIMESTAMPTZ NOT NULL DEFAULT NOW()
);

CREATE INDEX idx_send_job_items_job_status ON send_job_items(job_id, status);
CREATE INDEX idx_send_job_items_queued ON send_job_items(status, last_checked_at NULLS FIRST, updated_at)
    WHERE status = 'queued';

-- Direct sends

CREATE TABLE sends (
    id UUID PRIMARY KEY,
    api_key_id UUID REFERENCES api_keys(id),
    from_address TEXT NOT NULL,
    to_address TEXT NOT NULL,
    domain TEXT NOT NULL,
    server_name TEXT NOT NULL,
    status TEXT NOT NULL DEFAULT 'pending',
    remote_message_id TEXT,
    last_error TEXT,
    created_at TIMESTAMPTZ NOT NULL DEFAULT NOW(),
    updated_at TIMESTAMPTZ NOT NULL DEFAULT NOW()
);
"

/-- The migrations in the order of their versions. -/
def migrations : List Migration := [⟨20240101000000, "initial", initialScript⟩]

/-- The migrations that a database went through: their versions and digests, and the version of one
that was begun and never ended. -/
structure History where
  applied : List (Int × String) := []
  unfinished : Option Int := none
deriving DecidableEq, Repr

/-- Why a schema is not brought up to date. -/
inductive MigrationError where
  | unfinished (version : Int)
  | unknown (version : Int)
  | modified (version : Int)
deriving DecidableEq, Repr

def MigrationError.message : MigrationError → String
  | unfinished version =>
      "migration " ++ toString version ++
        " is partially applied; fix and remove row from \x60_sqlx_migrations\x60 table"
  | unknown version =>
      "migration " ++ toString version ++
        " was previously applied but is missing in the resolved migrations"
  | modified version =>
      "migration " ++ toString version ++ " was previously applied but has been modified"

namespace History

/-- What a history forbids before any migration is looked at. -/
def obstacle? (h : History) (known : List Migration) : Option MigrationError :=
  match h.unfinished with
  | some version => some (.unfinished version)
  | none =>
      (h.applied.find? fun (version, _) => !known.any fun m => m.version == version).map
        fun (version, _) => .unknown version

def isPending (h : History) (m : Migration) : Except MigrationError Bool :=
  match h.applied.lookup m.version with
  | none => .ok true
  | some digest => if digest = m.digest then .ok false else .error (.modified m.version)

end History

/-- Apply a migration and record it, all or nothing. -/
def Migration.apply (m : Migration) : Dialogue Unit :=
  .transaction do
    let _ ← Dialogue.execute m.script []
    let _ ← Dialogue.tell (.recordMigration m.version m.name m.digest)

/-- Apply the migrations that are still to be applied, in order. -/
def applyPending (h : History) : List Migration → Dialogue Unit
  | [] => pure ()
  | m :: rest =>
      match h.isPending m with
      | .error e => .ofExcept (.error e.message)
      | .ok true => do
          m.apply.under "while executing migrations: "
          applyPending h rest
      | .ok false => applyPending h rest

def migrate (h : History) : Dialogue Unit :=
  .under "Migration failed: "
    (match h.obstacle? migrations with
    | some e => .ofExcept (.error e.message)
    | none => applyPending h migrations)

end Mailroom.Sql
