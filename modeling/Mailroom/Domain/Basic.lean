import Mailroom.Digest.Sha2
import Mailroom.Text.Letter
import Mailroom.Timestamp
import Mailroom.Uuid
import Mailroom.Vocabulary

/-!
Sender domains and their deployments on mail servers.  A domain carries a hash of everything that a
server needs to know about it, so that a deployment made from other settings can be told apart.
-/

namespace Mailroom

/-- What a server does with mail from a domain. -/
inductive DeliveryMode where
  | production
  | sandbox
  | redirect
  | bcc
deriving DecidableEq, Repr

instance : Vocabulary DeliveryMode where
  all := [.production, .sandbox, .redirect, .bcc]
  word
    | .production => "production"
    | .sandbox => "sandbox"
    | .redirect => "redirect"
    | .bcc => "bcc"
  find_word s := by cases s <;> decide

/-- A sender domain and its settings; a limit of zero means no limit. -/
structure Domain where
  id : Uuid
  name : String
  mode : Stored DeliveryMode
  redirectTo : Option String
  bccTo : Option String
  dkimSelector : Option String
  dkimEnabled : Bool
  perMinute : Int
  perHour : Int
  configHash : String
  createdAt : Timestamp
  updatedAt : Timestamp
deriving DecidableEq, Repr

namespace Domain

/-- The texts that the hash is taken over, in order. -/
def fingerprint (d : Domain) : List String :=
  [d.name, d.mode.text, d.redirectTo.getD "", d.bccTo.getD "", d.dkimSelector.getD "",
    if d.dkimEnabled then "1" else "0", toString d.perMinute, toString d.perHour]

/-- The bytes of some texts, each closed by a zero byte. -/
def sealed (texts : List String) : List UInt8 := texts.flatMap fun s => s.toUTF8.toList ++ [0]

def computeHash (d : Domain) : String := Text.hexOfBytes (Digest.sha256 (sealed d.fingerprint))

def rehashed (d : Domain) : Domain := { d with configHash := d.computeHash }

/-- A domain in production without limits. -/
def create (id : Uuid) (name : String) (now : Timestamp) : Domain :=
  rehashed
    { id, name := Text.lowered name, mode := .known .production, redirectTo := none, bccTo := none
      dkimSelector := none, dkimEnabled := false, perMinute := 0, perHour := 0, configHash := ""
      createdAt := now, updatedAt := now }

theorem configHash_rehashed (d : Domain) : d.rehashed.configHash = d.rehashed.computeHash := rfl

end Domain

/-- Whether a server holds the settings of a domain. -/
inductive DeploymentStatus where
  | deployed
  | outdated
  | failed
deriving DecidableEq, Repr

instance : Vocabulary DeploymentStatus where
  all := [.deployed, .outdated, .failed]
  word
    | .deployed => "deployed"
    | .outdated => "outdated"
    | .failed => "failed"
  find_word s := by cases s <;> decide

/-- Mail may go out through a server that holds the settings, be they current or old. -/
def DeploymentStatus.isRoutable : DeploymentStatus → Bool
  | .deployed | .outdated => true
  | .failed => false

/-- One domain on one server. -/
structure Deployment where
  id : Uuid
  domainId : Uuid
  server : String
  status : Stored DeploymentStatus
  deployedHash : Option String
  position : Int
  lastError : Option String
  deployedAt : Option Timestamp
deriving DecidableEq, Repr

structure DomainConfig where
  domain : Domain
  deployments : List Deployment
deriving DecidableEq, Repr

namespace DomainConfig

/-- The servers that mail may go out through, in deployment order. -/
def routable (c : DomainConfig) : List String :=
  (c.deployments.filter fun d => (d.status.value?.map DeploymentStatus.isRoutable).getD false).map
    Deployment.server

/-- The servers that hold old settings. -/
def outdated (c : DomainConfig) : List String :=
  (c.deployments.filter fun d => d.status = .known .outdated).map Deployment.server

end DomainConfig

end Mailroom
