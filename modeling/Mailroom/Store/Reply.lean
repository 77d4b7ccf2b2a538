import Mailroom.Store.Call
import Mailroom.Store.Format

/-!
The JSON forms of what a store replies: rows as objects, numbers and truth values plainly, and
nothing as null.
-/

namespace Mailroom

def Json.ofRows {α : Type} (f : α → Json) (rows : List α) : Json := .arr (rows.map f)

def StoreCall.replyJson : (c : StoreCall) → c.Reply → Json
  | .domainByName _ => .orNull DomainConfig.toJson
  | .domains _ _ => Page.toJson Domain.toJson
  | .updateDomain _ _ => .orNull Domain.toJson
  | .putDeployment _ _ _ _ _ => Deployment.toJson
  | .dropDeployment _ _ => .bool
  | .markOutdated _ _ => .ofNat
  | .createJob _ _ => Job.toJson
  | .job _ => .orNull Job.toJson
  | .jobs _ _ _ => Page.toJson Job.toJson
  | .jobsIn _ | .dueJobs _ => .ofRows Job.toJson
  | .moveJob _ _ _ => .orNull Job.toJson
  | .pendingItems _ _ | .queuedItems _ => .ofRows Item.toJson
  | .checkItems _ => fun _ => .null
  | .item _ => .orNull Item.toJson
  | .queueItem _ _ | .failItem _ _ _ | .confirmItem _ => .bool
  | .resetFailed _ => .ofNat
  | .refreshStats _ => JobStats.toJson
  | .createSend _ => SendRecord.toJson
  | .send _ | .finishSend _ _ _ _ => .orNull SendRecord.toJson
  | .keysByLead _ => .ofRows ApiKey.toJson
  | .touchKey _ => fun _ => .null
  | .template _ | .templateByName _ => .orNull Template.toJson
  | .campaign _ => .orNull Campaign.toJson
  | .variants _ => .ofRows Variant.toJson
  | .recipient _ => .orNull Recipient.toJson
  | .recipients _ _ _ => Page.toJson Recipient.toJson
  | .globals => Dictionary.toJson
  | .setVariable _ _ => fun _ => .null

end Mailroom
