import Mailroom.Sql.Domains
import Mailroom.Sql.Jobs

/-!
The store in a database: the dialogue that each call leads to.
-/

namespace Mailroom

namespace Sql

/-- The dialogue about a row of content, by its identifier. -/
def byId {α : Type} (f : Json.Fields α) (table : String) (id : Uuid) : Dialogue (Option α) :=
  .selectFirst? (Row.read f) ("SELECT * FROM " ++ table ++ " WHERE id = $1") [.id id]

def createSend (fresh : Uuid) (s : NewSend) (now : Timestamp) : Dialogue SendRecord :=
  .selectOne (Row.read SendRecord.fields)
    ("INSERT INTO sends ( id, api_key_id, from_address, to_address, domain, server_name, " ++
     "status, created_at, updated_at ) VALUES ($1, $2, $3, $4, $5, $6, 'pending', $7, $7) " ++
     "RETURNING *")
    [.id fresh, .ofOption .id s.keyId, .text s.sender, .text s.recipient, .text s.domain,
      .text s.server, .time now]

def finishSend (id : Uuid) (status : SendStatus) (remoteId error : Option String)
    (now : Timestamp) : Dialogue (Option SendRecord) :=
  .selectFirst? (Row.read SendRecord.fields)
    ("UPDATE sends SET status = $2, remote_message_id = $3, last_error = $4, updated_at = $5 " ++
     "WHERE id = $1 AND status = 'pending' RETURNING *")
    [.id id, .text (Vocabulary.word status), .ofOption .text remoteId, .ofOption .text error,
      .time now]

def recipients (list : Uuid) (limit offset : Int) : Dialogue (Page Recipient) := do
  let items ← .select (Row.read Recipient.fields)
    ("SELECT * FROM recipients WHERE recipient_list_id = $1 " ++
     "ORDER BY created_at ASC, id ASC LIMIT $2 OFFSET $3")
    [.id list, .int limit, .int offset]
  return ⟨items, ← .count "SELECT COUNT(*) FROM recipients WHERE recipient_list_id = $1" [.id list]⟩

def variableOf (row : Row) : Except String (String × String) := do
  return (← Row.cell 0 "key" .text row, ← Row.cell 1 "value" .text row)

def ping : Dialogue Unit :=
  .under "Ping failed: " do
    let _ ← Dialogue.execute "SELECT 1" []

end Sql

namespace StoreCall

open Sql (Dialogue Row)

def issues : StoreCall → Nat
  | putDeployment _ _ _ _ _ | createSend _ => 1
  | createJob _ items => items.length + 1
  | _ => 0

/-- The dialogue of a call at an instant; `fresh` gives new identifiers. -/
def dialogue (now : Timestamp) (fresh : Nat → Uuid) : (c : StoreCall) → Dialogue c.Reply
  | domainByName name => Sql.Domains.byName name
  | domains limit offset => Sql.Domains.page limit offset
  | updateDomain id patch => Sql.Domains.update id patch now
  | putDeployment domain server status hash error =>
      Sql.Domains.putDeployment (fresh 0) domain server status hash error now
  | dropDeployment domain server => Sql.Domains.dropDeployment domain server
  | markOutdated domain hash => Sql.Domains.markOutdated domain hash
  | createJob begun items => Sql.Jobs.create fresh begun items now
  | job id => Sql.Jobs.find? id
  | jobs status limit offset => Sql.Jobs.page status limit offset
  | jobsIn status => Sql.Jobs.inStatus status
  | dueJobs now => Sql.Jobs.due now
  | moveJob id sources target => Sql.Jobs.move id sources target now
  | pendingItems id limit => Sql.Jobs.pendingItems id limit
  | queuedItems limit => Sql.Jobs.queuedItems limit
  | checkItems ids => Sql.Jobs.checkItems ids now
  | item id => Sql.Jobs.item? id
  | queueItem id remoteId => Sql.Jobs.queueItem id remoteId now
  | failItem id source error => Sql.Jobs.failItem id source error now
  | confirmItem id => Sql.Jobs.confirmItem id now
  | resetFailed id => Sql.Jobs.resetFailed id now
  | refreshStats id => Sql.Jobs.refreshStats id now
  | createSend begun => Sql.createSend (fresh 0) begun now
  | send id => Sql.byId SendRecord.fields "sends" id
  | finishSend id status remoteId error => Sql.finishSend id status remoteId error now
  | keysByLead lead =>
      .select (Row.read ApiKey.fields)
        ("SELECT * FROM api_keys WHERE key_prefix = $1 " ++
         "AND (expires_at IS NULL OR expires_at > NOW()) LIMIT 10")
        [.text lead]
  | touchKey id => do
      let _ ← Dialogue.execute "UPDATE api_keys SET last_used_at = $2 WHERE id = $1"
        [.id id, .time now]
  | template id => Sql.byId Template.fields "templates" id
  | templateByName name =>
      .selectFirst? (Row.read Template.fields) "SELECT * FROM templates WHERE name = $1"
        [.text name]
  | campaign id => Sql.byId Campaign.fields "campaigns" id
  | variants id =>
      .select (Row.read Variant.fields)
        "SELECT * FROM campaign_variants WHERE campaign_id = $1 ORDER BY id ASC" [.id id]
  | recipient id => Sql.byId Recipient.fields "recipients" id
  | recipients list limit offset => Sql.recipients list limit offset
  | globals => do
      return Dictionary.ofList
        (← .select Sql.variableOf "SELECT key, value FROM global_variables" [])
  | setVariable name value => do
      let _ ← Dialogue.execute
        ("INSERT INTO global_variables (key, value) VALUES ($1, $2) " ++
         "ON CONFLICT (key) DO UPDATE SET value = EXCLUDED.value")
        [.text name, .text value]

end StoreCall

end Mailroom
