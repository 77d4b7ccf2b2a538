import Mailroom.Api.Request
import Mailroom.Mta.Registry
import Mailroom.Quota
import Mailroom.Send.Request

/-!
Answers of the interface: the rows it shows, and the status and body of every error.
-/

namespace Mailroom

/-- An answer: a status and, if there is anything to say in JSON, a body. -/
structure ApiAnswer where
  status : Nat
  body : Option Json

/-- Why a request is not answered with what it asks for. -/
inductive ApiError where
  | noSuchPlace
  | noSuchMethod
  | noKey
  | keysUnavailable
  | unreadable (reason : Unreadable)
  | scopeMissing (scope : String)
  | rateLimited (left : Remaining)
  | badField (text : String)
  | notFound (text : String)
  | dispatch (error : DispatchError)
  | job (error : JobError)

namespace ApiError

def body (code message : String) (more : List (String × Json)) : Option Json :=
  some (.obj ([("error", .str code), ("message", .str message)] ++ more))

/-- What is left of the limits. -/
def quotaJson (left : Remaining) : Json :=
  .obj
    [("per_minute", Json.orNull .ofNat left.perMinute),
      ("per_hour", Json.orNull .ofNat left.perHour)]

/-- The status that says why a request could not be read. -/
def unreadableStatus : Unreadable → Nat
  | .path | .query | .syntaxError => 400
  | .mediaType => 415
  | .shape => 422

def answer : ApiError → ApiAnswer
  | noSuchPlace => ⟨404, none⟩
  | noSuchMethod => ⟨405, none⟩
  | noKey => ⟨401, none⟩
  | keysUnavailable => ⟨500, none⟩
  | unreadable reason => ⟨unreadableStatus reason, none⟩
  | scopeMissing scope => ⟨403, body "FORBIDDEN" ("API key lacks the '" ++ scope ++ "' scope") []⟩
  | rateLimited left =>
      ⟨429, body "RATE_LIMIT_EXCEEDED" "Rate limit exceeded for this API key"
        [("remaining", quotaJson left)]⟩
  | badField text => ⟨400, body "INVALID_REQUEST" text []⟩
  | notFound text => ⟨404, body "NOT_FOUND" text []⟩
  | dispatch error => ⟨error.status, body error.code error.message []⟩
  | job error => ⟨error.status, body error.code error.message []⟩

end ApiError

namespace ApiAnswer

def ok (body : Json) : ApiAnswer := ⟨200, some body⟩

def jobJson (j : Job) : Json :=
  .obj
    [("id", j.id.toJson), ("campaign_id", j.campaignId.toJson), ("status", .str j.status.text),
      ("servers", .ofStrings j.serverNames), ("strategy", .str j.strategy.text),
      ("dry_run_limit", Json.orNull .int j.dryRunLimit), ("stats", j.stats.toJson),
      ("scheduled_at", Json.orNull Timestamp.toJson j.scheduledAt),
      ("started_at", Json.orNull Timestamp.toJson j.startedAt),
      ("completed_at", Json.orNull Timestamp.toJson j.completedAt),
      ("created_at", j.createdAt.toJson), ("updated_at", j.updatedAt.toJson)]

def deploymentJson (d : Deployment) : Json :=
  .obj
    [("server_name", .str d.server), ("status", .str d.status.text),
      ("deployed_hash", .ofOption d.deployedHash), ("last_error", .ofOption d.lastError),
      ("deployed_at", Json.orNull Timestamp.toJson d.deployedAt)]

def domainJson (c : DomainConfig) : Json :=
  .obj
    [("id", c.domain.id.toJson), ("name", .str c.domain.name),
      ("delivery_mode", .str c.domain.mode.text), ("redirect_to", .ofOption c.domain.redirectTo),
      ("bcc_to", .ofOption c.domain.bccTo), ("dkim_selector", .ofOption c.domain.dkimSelector),
      ("dkim_enabled", .bool c.domain.dkimEnabled),
      ("rate_limit_per_minute", .int c.domain.perMinute),
      ("rate_limit_per_hour", .int c.domain.perHour), ("config_hash", .str c.domain.configHash),
      ("deployments", .arr (c.deployments.map deploymentJson)),
      ("updated_at", c.domain.updatedAt.toJson)]

/-- What the interface shows of the record of a direct send. -/
def sendJson (s : SendRecord) : Json :=
  .obj
    [("id", s.id.toJson), ("from_address", .str s.sender), ("to_address", .str s.recipient),
      ("domain", .str s.domain), ("server_name", .str s.server), ("status", .str s.status.text),
      ("remote_message_id", .ofOption s.remoteId), ("last_error", .ofOption s.lastError),
      ("created_at", s.createdAt.toJson), ("updated_at", s.updatedAt.toJson)]

end ApiAnswer

end Mailroom
