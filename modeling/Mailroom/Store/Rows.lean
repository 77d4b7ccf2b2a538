import Mailroom.Content.Campaign
import Mailroom.Domain.Basic
import Mailroom.Job.Basic
import Mailroom.Json.Decode

/-!
The remaining rows of the store, records of direct sends and API keys, and a page of rows.
-/

namespace Mailroom

/-- What became of a direct send. -/
inductive SendStatus where
  | pending
  | sent
  | failed
deriving DecidableEq, Repr

instance : Vocabulary SendStatus where
  all := [.pending, .sent, .failed]
  word
    | .pending => "pending"
    | .sent => "sent"
    | .failed => "failed"
  find_word s := by cases s <;> decide

structure SendRecord where
  id : Uuid
  keyId : Option Uuid
  sender : String
  recipient : String
  domain : String
  server : String
  status : Stored SendStatus
  remoteId : Option String
  lastError : Option String
  createdAt : Timestamp
  updatedAt : Timestamp
deriving DecidableEq, Repr, Inhabited

/-- What a record is made from. -/
structure NewSend where
  keyId : Option Uuid
  sender : String
  recipient : String
  domain : String
  server : String
deriving DecidableEq, Repr

/-- An API key: its scopes, the domains it may send from, and its limits, zero meaning none. -/
structure ApiKey where
  id : Uuid
  name : String
  hash : String
  lead : String
  scopes : Json
  domains : Json
  perMinute : Int
  perHour : Int
  expiresAt : Option Timestamp
  lastUsedAt : Option Timestamp
  createdAt : Timestamp
deriving Inhabited

namespace ApiKey

/-- The texts of a stored list; any other value stands for the empty list. -/
def textsOf : Json → List String
  | .arr items => (items.mapM Json.str?).getD []
  | _ => []

def scopeNames (k : ApiKey) : List String := textsOf k.scopes

def domainNames (k : ApiKey) : List String := textsOf k.domains

def hasScope (k : ApiKey) (scope : String) : Bool :=
  k.scopeNames.any fun s => s == "*" || s == scope

/-- Whether a key may send from a domain; no domains at all means any. -/
def allowsDomain (k : ApiKey) (domain : String) : Bool :=
  k.domainNames.isEmpty || k.domainNames.any fun d => Text.lowered d == Text.lowered domain

def isExpired (k : ApiKey) (now : Timestamp) : Bool :=
  match k.expiresAt with
  | some at_ => at_.lt now
  | none => false

end ApiKey

def scopeSend : String := "send"

def scopeAdmin : String := "admin"

structure Page (α : Type) where
  items : List α
  total : Int
deriving DecidableEq, Repr, Inhabited

/-- Rows from `offset` on, at most `limit` of them; negative numbers count as zero. -/
def Page.cut {α : Type} (rows : List α) (limit offset : Int) : Page α :=
  ⟨(rows.drop offset.toNat).take limit.toNat, Int.ofNat rows.length⟩

end Mailroom
