import Mailroom.Store.Rows
import Mailroom.Domain.Patch

/-!
The JSON forms of rows: one object a row, instants as texts in UTC, and nothing as null.
-/

namespace Mailroom

open Json (Decoder Fields)

def Uuid.toJson (id : Uuid) : Json := .str id.display

def Timestamp.toJson (t : Timestamp) : Json := .str t.display

def Json.orNull {α : Type} (f : α → Json) : Option α → Json
  | some a => f a
  | none => .null

def Json.Decoder.stored {σ : Type} [Vocabulary σ] : Decoder (Stored σ) :=
  fun d => (Decoder.text d).map Stored.ofText

namespace JobStats

def members (s : JobStats) : List (String × Json) :=
  [("total", .int s.total), ("pending", .int s.pending), ("queued", .int s.queued),
    ("sent", .int s.sent), ("failed", .int s.failed)]

def toJson (s : JobStats) : Json := .obj s.members

def fields : Fields JobStats :=
  JobStats.mk <$> .required "total" .int64 <*> .required "pending" .int64
    <*> .required "queued" .int64 <*> .required "sent" .int64 <*> .required "failed" .int64

end JobStats

namespace Domain

def toJson (d : Domain) : Json :=
  .obj
    [("id", d.id.toJson), ("name", .str d.name), ("delivery_mode", .str d.mode.text),
      ("redirect_to", .ofOption d.redirectTo), ("bcc_to", .ofOption d.bccTo),
      ("dkim_selector", .ofOption d.dkimSelector), ("dkim_enabled", .bool d.dkimEnabled),
      ("rate_limit_per_minute", .int d.perMinute), ("rate_limit_per_hour", .int d.perHour),
      ("config_hash", .str d.configHash), ("created_at", d.createdAt.toJson),
      ("updated_at", d.updatedAt.toJson)]

def fields : Fields Domain :=
  Domain.mk <$> .required "id" .uuid <*> .required "name" .text
    <*> .required "delivery_mode" .stored <*> .optional "redirect_to" .text
    <*> .optional "bcc_to" .text <*> .optional "dkim_selector" .text
    <*> .required "dkim_enabled" .bool <*> .required "rate_limit_per_minute" .int32
    <*> .required "rate_limit_per_hour" .int32 <*> .required "config_hash" .text
    <*> .required "created_at" .time <*> .required "updated_at" .time

end Domain

namespace Deployment

def toJson (d : Deployment) : Json :=
  .obj
    [("id", d.id.toJson), ("domain_id", d.domainId.toJson), ("server_name", .str d.server),
      ("status", .str d.status.text), ("deployed_hash", .ofOption d.deployedHash),
      ("position", .int d.position), ("last_error", .ofOption d.lastError),
      ("deployed_at", .orNull Timestamp.toJson d.deployedAt)]

def fields : Fields Deployment :=
  Deployment.mk <$> .required "id" .uuid <*> .required "domain_id" .uuid
    <*> .required "server_name" .text <*> .required "status" .stored
    <*> .optional "deployed_hash" .text <*> .required "position" .int32
    <*> .optional "last_error" .text <*> .optional "deployed_at" .time

end Deployment

namespace DomainConfig

def toJson (c : DomainConfig) : Json :=
  .obj [("domain", c.domain.toJson), ("deployments", .arr (c.deployments.map Deployment.toJson))]

def fields : Fields DomainConfig :=
  DomainConfig.mk <$> .required "domain" Domain.fields.decoder
    <*> .required "deployments" (.list Deployment.fields.decoder)

end DomainConfig

namespace Job

def toJson (j : Job) : Json :=
  .obj
    ([("id", j.id.toJson), ("campaign_id", j.campaignId.toJson), ("status", .str j.status.text),
      ("servers", j.servers), ("strategy", .str j.strategy.text),
      ("dry_run_limit", .orNull .int j.dryRunLimit),
      ("scheduled_at", .orNull Timestamp.toJson j.scheduledAt)]
    ++ j.stats.members
    ++ [("created_at", j.createdAt.toJson), ("updated_at", j.updatedAt.toJson),
      ("started_at", .orNull Timestamp.toJson j.startedAt),
      ("completed_at", .orNull Timestamp.toJson j.completedAt)])

def fields : Fields Job :=
  (fun id campaign status servers strategy limit scheduled total pending queued sent failed
      created updated started completed =>
    Job.mk id campaign status servers strategy limit scheduled
      ⟨total, pending, queued, sent, failed⟩ created updated started completed)
    <$> .required "id" .uuid <*> .required "campaign_id" .uuid <*> .required "status" .stored
    <*> .required "servers" .any <*> .required "strategy" .stored
    <*> .optional "dry_run_limit" .int32 <*> .optional "scheduled_at" .time
    <*> .required "total" .int64 <*> .required "pending" .int64 <*> .required "queued" .int64
    <*> .required "sent" .int64 <*> .required "failed" .int64
    <*> .required "created_at" .time <*> .required "updated_at" .time
    <*> .optional "started_at" .time <*> .optional "completed_at" .time

end Job

def NewJob.fields : Fields NewJob :=
  NewJob.mk <$> .required "campaign_id" .uuid <*> .required "status" .word
    <*> .required "servers" (.list .text) <*> .required "strategy" .word
    <*> .optional "dry_run_limit" .int32 <*> .optional "scheduled_at" .time

namespace Item

def toJson (i : Item) : Json :=
  .obj
    [("id", i.id.toJson), ("job_id", i.jobId.toJson), ("recipient_id", i.recipientId.toJson),
      ("variant_id", .orNull Uuid.toJson i.variantId), ("server_name", .str i.server),
      ("status", .str i.status.text), ("remote_message_id", .ofOption i.remoteId),
      ("last_error", .ofOption i.lastError),
      ("last_checked_at", .orNull Timestamp.toJson i.checkedAt),
      ("created_at", i.createdAt.toJson), ("updated_at", i.updatedAt.toJson)]

def fields : Fields Item :=
  Item.mk <$> .required "id" .uuid <*> .required "job_id" .uuid <*> .required "recipient_id" .uuid
    <*> .optional "variant_id" .uuid <*> .required "server_name" .text
    <*> .required "status" .stored <*> .optional "remote_message_id" .text
    <*> .optional "last_error" .text <*> .optional "last_checked_at" .time
    <*> .required "created_at" .time <*> .required "updated_at" .time

end Item

def NewItem.fields : Fields NewItem :=
  NewItem.mk <$> .required "recipient_id" .uuid <*> .optional "variant_id" .uuid
    <*> .required "server_name" .text

namespace SendRecord

def toJson (s : SendRecord) : Json :=
  .obj
    [("id", s.id.toJson), ("api_key_id", .orNull Uuid.toJson s.keyId),
      ("from_address", .str s.sender), ("to_address", .str s.recipient), ("domain", .str s.domain),
      ("server_name", .str s.server), ("status", .str s.status.text),
      ("remote_message_id", .ofOption s.remoteId), ("last_error", .ofOption s.lastError),
      ("created_at", s.createdAt.toJson), ("updated_at", s.updatedAt.toJson)]

def fields : Fields SendRecord :=
  SendRecord.mk <$> .required "id" .uuid <*> .optional "api_key_id" .uuid
    <*> .required "from_address" .text <*> .required "to_address" .text
    <*> .required "domain" .text <*> .required "server_name" .text <*> .required "status" .stored
    <*> .optional "remote_message_id" .text <*> .optional "last_error" .text
    <*> .required "created_at" .time <*> .required "updated_at" .time

end SendRecord

def NewSend.fields : Fields NewSend :=
  NewSend.mk <$> .optional "api_key_id" .uuid <*> .required "from_address" .text
    <*> .required "to_address" .text <*> .required "domain" .text <*> .required "server_name" .text

namespace ApiKey

def toJson (k : ApiKey) : Json :=
  .obj
    [("id", k.id.toJson), ("name", .str k.name), ("key_hash", .str k.hash),
      ("key_prefix", .str k.lead), ("scopes", k.scopes), ("allowed_domains", k.domains),
      ("rate_limit_per_minute", .int k.perMinute), ("rate_limit_per_hour", .int k.perHour),
      ("expires_at", .orNull Timestamp.toJson k.expiresAt),
      ("last_used_at", .orNull Timestamp.toJson k.lastUsedAt), ("created_at", k.createdAt.toJson)]

def fields : Fields ApiKey :=
  ApiKey.mk <$> .required "id" .uuid <*> .required "name" .text <*> .required "key_hash" .text
    <*> .required "key_prefix" .text <*> .required "scopes" .any
    <*> .required "allowed_domains" .any <*> .required "rate_limit_per_minute" .int32
    <*> .required "rate_limit_per_hour" .int32 <*> .optional "expires_at" .time
    <*> .optional "last_used_at" .time <*> .required "created_at" .time

end ApiKey

namespace Template

def toJson (t : Template) : Json :=
  .obj
    [("id", t.id.toJson), ("name", .str t.name), ("subject", .str t.subject),
      ("html_body", .ofOption t.html), ("text_body", .ofOption t.text),
      ("created_at", t.createdAt.toJson), ("updated_at", t.updatedAt.toJson)]

def fields : Fields Template :=
  Template.mk <$> .required "id" .uuid <*> .required "name" .text <*> .required "subject" .text
    <*> .optional "html_body" .text <*> .optional "text_body" .text
    <*> .required "created_at" .time <*> .required "updated_at" .time

end Template

namespace Campaign

def toJson (c : Campaign) : Json :=
  .obj
    [("id", c.id.toJson), ("name", .str c.name), ("from_address", .str c.sender),
      ("reply_to", .ofOption c.replyTo), ("template_id", .orNull Uuid.toJson c.templateId),
      ("subject", .ofOption c.subject), ("html_body", .ofOption c.html),
      ("text_body", .ofOption c.text), ("variables", c.values),
      ("recipient_list_id", c.listId.toJson), ("created_at", c.createdAt.toJson),
      ("updated_at", c.updatedAt.toJson)]

def fields : Fields Campaign :=
  Campaign.mk <$> .required "id" .uuid <*> .required "name" .text
    <*> .required "from_address" .text <*> .optional "reply_to" .text
    <*> .optional "template_id" .uuid <*> .optional "subject" .text <*> .optional "html_body" .text
    <*> .optional "text_body" .text <*> .required "variables" .any
    <*> .required "recipient_list_id" .uuid <*> .required "created_at" .time
    <*> .required "updated_at" .time

end Campaign

namespace Variant

def toJson (v : Variant) : Json :=
  .obj
    [("id", v.id.toJson), ("campaign_id", v.campaignId.toJson), ("name", .str v.name),
      ("weight", .int v.weight), ("template_id", .orNull Uuid.toJson v.templateId),
      ("subject", .ofOption v.subject), ("html_body", .ofOption v.html),
      ("text_body", .ofOption v.text)]

def fields : Fields Variant :=
  Variant.mk <$> .required "id" .uuid <*> .required "campaign_id" .uuid <*> .required "name" .text
    <*> .required "weight" .int32 <*> .optional "template_id" .uuid <*> .optional "subject" .text
    <*> .optional "html_body" .text <*> .optional "text_body" .text

end Variant

namespace Recipient

def toJson (r : Recipient) : Json :=
  .obj
    [("id", r.id.toJson), ("recipient_list_id", r.listId.toJson), ("email", .str r.email),
      ("name", .ofOption r.name), ("variables", r.values), ("created_at", r.createdAt.toJson)]

def fields : Fields Recipient :=
  Recipient.mk <$> .required "id" .uuid <*> .required "recipient_list_id" .uuid
    <*> .required "email" .text <*> .optional "name" .text <*> .required "variables" .any
    <*> .required "created_at" .time

end Recipient

def Page.toJson {α : Type} (f : α → Json) (p : Page α) : Json :=
  .obj [("items", .arr (p.items.map f)), ("total", .int p.total)]

def Dictionary.toJson (d : Dictionary) : Json :=
  .obj (d.entries.map fun (name, value) => (name, .str value))

end Mailroom
