import Mailroom.Content.Source
import Mailroom.Store.Format

/-!
Requests for direct sends, and what they are answered with.
-/

namespace Mailroom

open Json (Fields)

structure SendRequest where
  sender : String
  recipient : String
  replyTo : Option String
  subject : Option String
  html : Option String
  text : Option String
  templateId : Option Uuid
  templateName : Option String
  values : Dictionary
  recipientName : Option String
  server : Option String
  headers : Dictionary
deriving DecidableEq, Repr

namespace SendRequest

def fields : Fields SendRequest :=
  SendRequest.mk <$> .defaulted "from" .text "" <*> .defaulted "to" .text ""
    <*> .trailing "reply_to" .text <*> .trailing "subject" .text <*> .trailing "html" .text
    <*> .trailing "text" .text <*> .trailing "template_id" .uuid <*> .trailing "template_name" .text
    <*> .defaulted "variables" .dictionary .empty <*> .trailing "recipient_name" .text
    <*> .trailing "server" .text <*> .defaulted "headers" .dictionary .empty

end SendRequest

/-- What a request that was carried out is answered with. -/
structure SendReceipt where
  id : Uuid
  status : SendStatus
  server : String
  remoteId : Option String
deriving DecidableEq, Repr

def SendReceipt.toJson (r : SendReceipt) : Json :=
  .obj
    [("id", r.id.toJson), ("status", .str (Vocabulary.word r.status)),
      ("server_name", .str r.server), ("remote_message_id", .ofOption r.remoteId)]

end Mailroom
