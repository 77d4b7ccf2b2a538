import Mailroom.Domain.Patch
import Mailroom.Error
import Mailroom.Store.Format

/-!
What is exchanged with a mail server: messages, delivery statuses, and the settings of a domain.
-/

namespace Mailroom

open Json (Decoder Fields)

structure Message where
  sender : String
  recipient : String
  replyTo : Option String
  subject : String
  html : Option String
  text : Option String
  headers : Dictionary
deriving DecidableEq, Repr, Inhabited

namespace Message

/-- A member that is left out when there is nothing to say. -/
def optionalMember (name : String) : Option String → List (String × Json)
  | some s => [(name, .str s)]
  | none => []

def toJson (m : Message) : Json :=
  .obj
    ([("from", .str m.sender), ("to", .str m.recipient)] ++ optionalMember "reply_to" m.replyTo
      ++ [("subject", .str m.subject)] ++ optionalMember "html" m.html
      ++ optionalMember "text" m.text
      ++ if m.headers.isEmpty then [] else [("headers", m.headers.toJson)])

def fields : Fields Message :=
  Message.mk <$> .required "from" .text <*> .required "to" .text <*> .optional "reply_to" .text
    <*> .required "subject" .text <*> .optional "html" .text <*> .optional "text" .text
    <*> .defaulted "headers" .dictionary .empty

end Message

structure RemoteStatus where
  status : String
  lastError : Option String
deriving DecidableEq, Repr, Inhabited

namespace RemoteStatus

def fields : Fields RemoteStatus :=
  RemoteStatus.mk <$> .required "status" .text <*> .trailing "last_error" .text

/-- The final status of the item, if the message is no longer on its way. -/
def itemStatus? (r : RemoteStatus) : Option ItemStatus :=
  let word := Text.lowered r.status
  if word = "sent" ∨ word = "delivered" then some .sent
  else if word = "failed" ∨ word = "rejected" ∨ word = "bounced" then some .failed
  else none

end RemoteStatus

structure DomainSpec where
  name : String
  mode : String
  redirectTo : Option String
  bccTo : Option String
  dkimSelector : Option String
  dkimEnabled : Bool
  perMinute : Int
  perHour : Int
  configHash : String
deriving DecidableEq, Repr, Inhabited

namespace DomainSpec

def ofDomain (d : Domain) : DomainSpec :=
  ⟨d.name, d.mode.text, d.redirectTo, d.bccTo, d.dkimSelector, d.dkimEnabled, d.perMinute,
    d.perHour, d.configHash⟩

def toJson (s : DomainSpec) : Json :=
  .obj
    [("name", .str s.name), ("delivery_mode", .str s.mode), ("redirect_to", .ofOption s.redirectTo),
      ("bcc_to", .ofOption s.bccTo), ("dkim_selector", .ofOption s.dkimSelector),
      ("dkim_enabled", .bool s.dkimEnabled), ("rate_limit_per_minute", .int s.perMinute),
      ("rate_limit_per_hour", .int s.perHour), ("config_hash", .str s.configHash)]

def fields : Fields DomainSpec :=
  DomainSpec.mk <$> .required "name" .text <*> .required "delivery_mode" .text
    <*> .optional "redirect_to" .text <*> .optional "bcc_to" .text
    <*> .optional "dkim_selector" .text <*> .required "dkim_enabled" .bool
    <*> .required "rate_limit_per_minute" .int32 <*> .required "rate_limit_per_hour" .int32
    <*> .required "config_hash" .text

end DomainSpec

/-- What a server can be asked to do. -/
inductive MtaCall where
  | submit (message : Message)
  | status (remoteId : String)
  | health
  | push (spec : DomainSpec)
  | remove (name : String)
deriving DecidableEq, Repr

namespace MtaCall

/-- What a server answers when it does what it is asked. -/
@[reducible] def Reply : MtaCall → Type
  | submit _ => String
  | status _ => RemoteStatus
  | health | push _ | remove _ => Unit

abbrev Answer (c : MtaCall) : Type := Except ClientError c.Reply

def name : MtaCall → String
  | submit _ => "send"
  | status _ => "status"
  | health => "health"
  | push _ => "push"
  | remove _ => "remove"

end MtaCall

end Mailroom
