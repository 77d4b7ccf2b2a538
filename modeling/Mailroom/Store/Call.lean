import Mailroom.Domain.Patch
import Mailroom.Error
import Mailroom.Store.Rows

/-!
What can be asked of a store.  Every call has a type of replies, and a label that names the kind of
rows it works on and what it does to them.
-/

namespace Mailroom

inductive StoreCall where
  | domainByName (name : String)
  | domains (limit offset : Int)
  | updateDomain (id : Uuid) (patch : DomainPatch)
  | putDeployment (domain : Uuid) (server : String) (status : DeploymentStatus)
      (hash error : Option String)
  | dropDeployment (domain : Uuid) (server : String)
  | markOutdated (domain : Uuid) (hash : String)
  | createJob (job : NewJob) (items : List NewItem)
  | job (id : Uuid)
  | jobs (status : Option JobStatus) (limit offset : Int)
  | jobsIn (status : JobStatus)
  | dueJobs (now : Timestamp)
  | moveJob (id : Uuid) (sources : List JobStatus) (target : JobStatus)
  | pendingItems (job : Uuid) (limit : Int)
  | queuedItems (limit : Int)
  | checkItems (ids : List Uuid)
  | item (id : Uuid)
  | queueItem (id : Uuid) (remoteId : String)
  | failItem (id : Uuid) (source : ItemStatus) (error : String)
  | confirmItem (id : Uuid)
  | resetFailed (job : Uuid)
  | refreshStats (job : Uuid)
  | createSend (send : NewSend)
  | send (id : Uuid)
  | finishSend (id : Uuid) (status : SendStatus) (remoteId error : Option String)
  | keysByLead (lead : String)
  | touchKey (id : Uuid)
  | template (id : Uuid)
  | templateByName (name : String)
  | campaign (id : Uuid)
  | variants (campaign : Uuid)
  | recipient (id : Uuid)
  | recipients (list : Uuid) (limit offset : Int)
  | globals
  | setVariable (name value : String)
deriving DecidableEq

namespace StoreCall

@[reducible] def Reply : StoreCall → Type
  | domainByName _ => Option DomainConfig
  | domains _ _ => Page Domain
  | updateDomain _ _ => Option Domain
  | putDeployment _ _ _ _ _ => Deployment
  | dropDeployment _ _ => Bool
  | markOutdated _ _ => Nat
  | createJob _ _ => Job
  | job _ => Option Job
  | jobs _ _ _ => Page Job
  | jobsIn _ => List Job
  | dueJobs _ => List Job
  | moveJob _ _ _ => Option Job
  | pendingItems _ _ => List Item
  | queuedItems _ => List Item
  | checkItems _ => Unit
  | item _ => Option Item
  | queueItem _ _ | failItem _ _ _ | confirmItem _ => Bool
  | resetFailed _ => Nat
  | refreshStats _ => JobStats
  | createSend _ => SendRecord
  | send _ => Option SendRecord
  | finishSend _ _ _ _ => Option SendRecord
  | keysByLead _ => List ApiKey
  | touchKey _ => Unit
  | template _ | templateByName _ => Option Template
  | campaign _ => Option Campaign
  | variants _ => List Variant
  | recipient _ => Option Recipient
  | recipients _ _ _ => Page Recipient
  | globals => Dictionary
  | setVariable _ _ => Unit

abbrev Answer (c : StoreCall) : Type := Except Failure c.Reply

/-- The label of a call: its kind of rows and its verb. -/
def label : StoreCall → String
  | domainByName _ => "domains.get_by_name"
  | domains _ _ => "domains.list"
  | updateDomain _ _ => "domains.update"
  | putDeployment _ _ _ _ _ => "domains.upsert_deployment"
  | dropDeployment _ _ => "domains.delete_deployment"
  | markOutdated _ _ => "domains.mark_outdated"
  | createJob _ _ => "jobs.create"
  | job _ => "jobs.get"
  | jobs _ _ _ => "jobs.list"
  | jobsIn _ => "jobs.list_by_status"
  | dueJobs _ => "jobs.due_scheduled"
  | moveJob _ _ _ => "jobs.transition"
  | pendingItems _ _ => "jobs.pending_items"
  | queuedItems _ => "jobs.queued_items"
  | checkItems _ => "jobs.mark_items_checked"
  | item _ => "jobs.get_item"
  | queueItem _ _ => "jobs.mark_item_queued"
  | failItem _ _ _ => "jobs.mark_item_failed"
  | confirmItem _ => "jobs.mark_item_sent"
  | resetFailed _ => "jobs.reset_failed_items"
  | refreshStats _ => "jobs.refresh_stats"
  | createSend _ => "sends.create"
  | send _ => "sends.get"
  | finishSend _ _ _ _ => "sends.finish"
  | keysByLead _ => "api_keys.find_by_prefix"
  | touchKey _ => "api_keys.update_last_used"
  | template _ => "templates.get"
  | templateByName _ => "templates.get_by_name"
  | campaign _ => "campaigns.get"
  | variants _ => "campaigns.variants"
  | recipient _ => "recipients.get"
  | recipients _ _ _ => "recipients.list_by_list"
  | globals => "variables.all"
  | setVariable _ _ => "variables.set"

/-- The reply that says that there is no such row, for the calls that have one. -/
def missed? : (c : StoreCall) → Option c.Reply
  | domainByName _ | updateDomain _ _ | job _ | moveJob _ _ _ | send _ | finishSend _ _ _ _
  | template _ | templateByName _ | campaign _ | recipient _ => some none
  | dropDeployment _ _ | queueItem _ _ | failItem _ _ _ | confirmItem _ => some false
  | _ => none

end StoreCall

end Mailroom
