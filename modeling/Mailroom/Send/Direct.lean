import Mailroom.Content.Resolve
import Mailroom.Routing.Route
import Mailroom.Send.Request
import Mailroom.Text.Quoted

/-!
Direct sends: one message is checked, rendered, routed and delivered, and its outcome is recorded.
A failure to record the outcome does not change it.
-/

namespace Mailroom.SendRequest

/-- The template that a request refers to; it may name only one. -/
def templateRef (r : SendRequest) : Except DispatchError (Option TemplateRef) :=
  match r.templateId, r.templateName with
  | some _, some _ =>
      .error (.invalidRequest "template_id and template_name are mutually exclusive")
  | some id, none => .ok (some (.byId id))
  | none, some name => .ok (some (.byName name))
  | none, none => .ok none

def recipientAddress (r : SendRequest) : Except DispatchError Address :=
  match Address.parse? r.recipient with
  | some a => .ok a
  | none => .error (.invalidRequest ("invalid recipient address: " ++ Text.quoted r.recipient))

def senderDomain (r : SendRequest) : Except DispatchError String :=
  match Address.senderDomain? r.sender with
  | some domain => .ok domain
  | none => .error (.invalidRequest ("invalid sender address: " ++ Text.quoted r.sender))

/-- A key may be restricted to some domains. -/
def checkKey (domain : String) : Option ApiKey → Except DispatchError Unit
  | some key =>
      if key.allowsDomain domain then .ok ()
      else
        .error (.invalidRequest ("API key " ++ key.lead ++ " may not send from " ++ domain))
  | none => .ok ()

/-- What a request is rendered from, once all its parts are checked. -/
def checked (r : SendRequest) (key : Option ApiKey) :
    Except DispatchError (ContentSource × RenderContext) := do
  let template ← r.templateRef
  let recipient ← r.recipientAddress
  let domain ← r.senderDomain
  checkKey domain key
  return (⟨template, r.subject, r.html, r.text⟩,
    ⟨none, .empty, r.values, some recipient.display, r.recipientName⟩)

def message (r : SendRequest) (content : RenderedContent) : Message :=
  ⟨r.sender, r.recipient, r.replyTo, content.subject, content.html, content.text, r.headers⟩

/-- Deliver a recorded message and record what became of it. -/
def conclude (router : Router) (route : Route) (message : Message) (id : Uuid) :
    Service DispatchError SendReceipt :=
  ExceptT.mk do
    match ← router.deliver route message with
    | .ok delivery =>
        let _ ← Program.request (.store (.finishSend id .sent (some delivery.remoteId) none))
        return .ok ⟨id, .sent, delivery.server, some delivery.remoteId⟩
    | .error e =>
        let _ ← Program.request (.store (.finishSend id .failed none (some e.message)))
        return .error e

/-- Carry out a request, on behalf of a key if it came with one. -/
def sendNow (r : SendRequest) (router : Router) (key : Option ApiKey) :
    Service DispatchError SendReceipt := do
  let (source, ctx) ← liftExcept (r.checked key)
  let content ← Content.resolve source ctx
  let route ← router.route r.sender r.server
  let record ← Service.store
    (.createSend ⟨key.map ApiKey.id, r.sender, r.recipient, route.domain, route.primary⟩)
  conclude router route (r.message content) record.id

end Mailroom.SendRequest
