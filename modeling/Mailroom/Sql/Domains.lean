import Mailroom.Sql.Dialogue
import Mailroom.Store.Call
import Mailroom.Store.Format

/-!
The dialogues about domains and their deployments.
-/

namespace Mailroom.Sql.Domains

/-- The domain of a name, in any case, with its deployments. -/
def byName (name : String) : Dialogue (Option DomainConfig) := do
  match ← .selectFirst? (Row.read Domain.fields) "SELECT * FROM domains WHERE name = $1"
      [.text (Text.lowered name)] with
  | none => return none
  | some d => do
      let deployments ← .select (Row.read Deployment.fields)
        ("SELECT * FROM domain_deployments WHERE domain_id = $1 " ++
         "ORDER BY position ASC, server_name ASC")
        [.id d.id]
      return some ⟨d, deployments⟩

/-- A page of domains in the order of their names. -/
def page (limit offset : Int) : Dialogue (Page Domain) := do
  let items ← .select (Row.read Domain.fields)
    "SELECT * FROM domains ORDER BY name ASC LIMIT $1 OFFSET $2" [.int limit, .int offset]
  return ⟨items, ← .count "SELECT COUNT(*) FROM domains" []⟩

def update (id : Uuid) (patch : DomainPatch) (now : Timestamp) : Dialogue (Option Domain) := do
  match ← .selectFirst? (Row.read Domain.fields) "SELECT * FROM domains WHERE id = $1" [.id id] with
  | none => return none
  | some d =>
      let d := patch.apply now d
      .selectFirst? (Row.read Domain.fields)
        ("UPDATE domains SET delivery_mode = $2, redirect_to = $3, bcc_to = $4, " ++
         "dkim_selector = $5, dkim_enabled = $6, rate_limit_per_minute = $7, " ++
         "rate_limit_per_hour = $8, config_hash = $9, updated_at = $10 WHERE id = $1 RETURNING *")
        [.id id, .text d.mode.text, .ofOption .text d.redirectTo, .ofOption .text d.bccTo,
          .ofOption .text d.dkimSelector, .bool d.dkimEnabled, .int d.perMinute, .int d.perHour,
          .text d.configHash, .time d.updatedAt]

/-- Record an attempt at a deployment; a new one gets an identifier and goes behind the others. -/
def putDeployment (fresh domain : Uuid) (server : String) (status : DeploymentStatus)
    (hash error : Option String) (now : Timestamp) : Dialogue Deployment :=
  .selectOne (Row.read Deployment.fields)
    ("INSERT INTO domain_deployments " ++
     "(id, domain_id, server_name, status, deployed_hash, position, last_error, deployed_at) " ++
     "VALUES ( $1, $2, $3, $4, $5, " ++
     "(SELECT COALESCE(MAX(position) + 1, 0) FROM domain_deployments WHERE domain_id = $2), " ++
     "$6, $7 ) " ++
     "ON CONFLICT (domain_id, server_name) DO UPDATE SET status = EXCLUDED.status, " ++
     "deployed_hash = COALESCE(EXCLUDED.deployed_hash, domain_deployments.deployed_hash), " ++
     "last_error = EXCLUDED.last_error, " ++
     "deployed_at = COALESCE(EXCLUDED.deployed_at, domain_deployments.deployed_at) RETURNING *")
    [.id fresh, .id domain, .text server, .text (Vocabulary.word status), .ofOption .text hash,
      .ofOption .text error, if status = .deployed then .time now else .null]

def dropDeployment (domain : Uuid) (server : String) : Dialogue Bool :=
  .affectsAny "DELETE FROM domain_deployments WHERE domain_id = $1 AND server_name = $2"
    [.id domain, .text server]

/-- Mark the deployments of a domain that hold other settings. -/
def markOutdated (domain : Uuid) (hash : String) : Dialogue Nat :=
  .execute
    ("UPDATE domain_deployments SET status = 'outdated' WHERE domain_id = $1 " ++
     "AND status = 'deployed' AND deployed_hash IS DISTINCT FROM $2")
    [.id domain, .text hash]

end Mailroom.Sql.Domains
