import Mailroom.Json.Decode
import Mailroom.Content.Campaign
import Mailroom.Content.Placeholder

/-!
Where a message's content comes from, and the variables that a template is rendered with.  Of the
layers of variables the more particular one counts, and the recipient's own address and name count
above all of them.
-/

namespace Mailroom

inductive TemplateRef where
  | byId (id : Uuid)
  | byName (name : String)
deriving DecidableEq, Repr

def TemplateRef.display : TemplateRef → String
  | .byId id => id.display
  | .byName name => name

/-- Read a reference: one member that is named for its kind. -/
def TemplateRef.decoder : Json.Decoder TemplateRef
  | .obj [(.str "id", id)] _ => (Json.Decoder.uuid id).map byId
  | .obj [(.str "name", name)] _ => (Json.Decoder.text name).map byName
  | d => .error d.refusal

/-- A template, or content given directly. -/
structure ContentSource where
  template : Option TemplateRef := none
  subject : Option String := none
  html : Option String := none
  text : Option String := none
deriving DecidableEq, Repr, Inhabited

namespace ContentSource

def hasContent (v : Variant) : Bool :=
  v.templateId.isSome || v.subject.isSome || v.html.isSome || v.text.isSome

/-- The content for one item of a campaign: its variant's if that has any, else the campaign's. -/
def forCampaign (c : Campaign) : Option Variant → ContentSource
  | some v =>
      if hasContent v then ⟨v.templateId.map .byId, v.subject, v.html, v.text⟩
      else ⟨c.templateId.map .byId, c.subject, c.html, c.text⟩
  | none => ⟨c.templateId.map .byId, c.subject, c.html, c.text⟩

end ContentSource

/-- The variables to render with; the global ones may still have to be fetched. -/
structure RenderContext where
  globals : Option Dictionary := none
  campaign : Dictionary := .empty
  recipient : Dictionary := .empty
  email : Option String := none
  name : Option String := none
deriving DecidableEq, Repr, Inhabited

structure RenderedContent where
  subject : String
  html : Option String
  text : Option String
deriving DecidableEq, Repr

namespace Content

/-- Three layers of variables in one; the later layer counts. -/
def merge (globals campaign recipient : Dictionary) : Dictionary :=
  (globals.override campaign).override recipient

/-- Bind some names to a value, if there is one. -/
def bindAll (names : List String) (value : Option String) (vars : Dictionary) : Dictionary :=
  match value with
  | none => vars
  | some value => names.foldl (fun vars name => vars.insert name value) vars

def valuesFor (globals : Dictionary) (ctx : RenderContext) : Dictionary :=
  bindAll ["name", "recipient_name"] ctx.name
    (bindAll ["email", "recipient_email"] ctx.email (merge globals ctx.campaign ctx.recipient))

def ofTemplate (t : Template) (vars : Dictionary) : RenderedContent :=
  ⟨render t.subject vars, t.html.map fun s => render s vars, t.text.map fun s => render s vars⟩

def isPresent (field : Option String) : Bool :=
  match field with
  | some s => s != ""
  | none => false

/-- Content given directly; none unless one of its fields holds any text. -/
def direct? (source : ContentSource) : Option RenderedContent :=
  if isPresent source.subject || isPresent source.html || isPresent source.text then
    some ⟨source.subject.getD "", source.html, source.text⟩
  else none

end Content

end Mailroom
