import Mailroom.Job.Basic

/-!
What can go wrong, as causes: each has a code, an HTTP status and one message.
-/

namespace Mailroom

/-- A failure of settings, of the store, or of a value. -/
inductive Failure where
  | config (text : String)
  | database (text : String)
  | validation (text : String)
deriving DecidableEq, Repr

namespace Failure

def code : Failure → String
  | config _ => "CONFIG_ERROR"
  | database _ => "DATABASE_ERROR"
  | validation _ => "VALIDATION_ERROR"

def status : Failure → Nat
  | config _ | database _ => 500
  | validation _ => 400

def message : Failure → String
  | config text => "Configuration error: " ++ text
  | database text => "Database error: " ++ text
  | validation text => "Validation error: " ++ text

end Failure

/-- Why a mail server did not do what it was asked. -/
inductive ClientError where
  | status (code : Nat) (body : String)
  | transport (text : String)
  | invalidResponse (text : String)
deriving DecidableEq, Repr

def ClientError.message : ClientError → String
  | status code body => "HTTP " ++ toString code ++ ": " ++ body
  | transport text => "Transport error: " ++ text
  | invalidResponse text => "Invalid response: " ++ text

/-- Why a direct send, its routing, or a domain's deployment was refused or failed. -/
inductive DispatchError where
  | invalidRequest (text : String)
  | domainNotFound (name : String)
  | noServersAvailable (domain : String)
  | templateNotFound (reference : String)
  | serverFailed (server : String) (source : ClientError)
  | allServersFailed (domain : String) (attempts : Nat) (last : ClientError)
  | storage (failure : Failure)
deriving DecidableEq, Repr

namespace DispatchError

def code : DispatchError → String
  | invalidRequest _ => "INVALID_REQUEST"
  | domainNotFound _ => "DOMAIN_NOT_FOUND"
  | noServersAvailable _ => "NO_SERVERS_AVAILABLE"
  | templateNotFound _ => "TEMPLATE_NOT_FOUND"
  | serverFailed _ _ => "SERVER_FAILED"
  | allServersFailed _ _ _ => "ALL_SERVERS_FAILED"
  | storage failure => failure.code

def status : DispatchError → Nat
  | invalidRequest _ => 400
  | domainNotFound _ | templateNotFound _ => 404
  | noServersAvailable _ => 503
  | serverFailed _ _ | allServersFailed _ _ _ => 502
  | storage failure => failure.status

def message : DispatchError → String
  | invalidRequest text => "Invalid request: " ++ text
  | domainNotFound name => "Domain not found: " ++ name
  | noServersAvailable domain => "No servers available for domain " ++ domain
  | templateNotFound reference => "Template not found: " ++ reference
  | serverFailed server source => "Delivery via " ++ server ++ " failed: " ++ source.message
  | allServersFailed domain attempts last =>
      "All " ++ toString attempts ++ " servers failed for domain " ++ domain ++ ": " ++ last.message
  | storage failure => failure.message

end DispatchError

/-- Why a job could not be made or moved. -/
inductive JobError where
  | notFound (id : Uuid)
  | campaignNotFound (id : Uuid)
  | invalidRequest (text : String)
  | invalidTransition (source : JobStatus) (action : String)
  | storage (failure : Failure)
deriving DecidableEq, Repr

namespace JobError

def code : JobError → String
  | notFound _ => "JOB_NOT_FOUND"
  | campaignNotFound _ => "CAMPAIGN_NOT_FOUND"
  | invalidRequest _ => "INVALID_REQUEST"
  | invalidTransition _ _ => "INVALID_TRANSITION"
  | storage failure => failure.code

def status : JobError → Nat
  | notFound _ | campaignNotFound _ => 404
  | invalidRequest _ => 400
  | invalidTransition _ _ => 409
  | storage failure => failure.status

def message : JobError → String
  | notFound id => "Job not found: " ++ id.display
  | campaignNotFound id => "Campaign not found: " ++ id.display
  | invalidRequest text => "Invalid request: " ++ text
  | invalidTransition source action =>
      "Cannot " ++ action ++ " a job in status " ++ Vocabulary.word source
  | storage failure => failure.message

end JobError

end Mailroom
