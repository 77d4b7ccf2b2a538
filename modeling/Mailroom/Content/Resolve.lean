import Mailroom.Content.Source
import Mailroom.Program

/-!
Resolving a content source: the template it refers to is looked up and rendered, and content that is
given directly is taken as it is.
-/

namespace Mailroom.Content

variable {ε : Type} [OfFailure ε]

def globals : Service ε Dictionary := Service.store .globals

def lookUp : TemplateRef → Service ε (Option Template)
  | .byId id => Service.store (.template id)
  | .byName name => Service.store (.templateByName name)

def template (reference : TemplateRef) : Service DispatchError Template := do
  Service.found (.templateNotFound reference.display) (← lookUp reference)

/-- The global variables of a context, fetched if it does not bring them. -/
def globalsOf (ctx : RenderContext) : Service ε Dictionary :=
  match ctx.globals with
  | some vars => pure vars
  | none => globals

def resolve (source : ContentSource) (ctx : RenderContext) :
    Service DispatchError RenderedContent :=
  match source.template with
  | none =>
      Service.found
        (.invalidRequest "subject, html or text is required when no template is given")
        (direct? source)
  | some reference => do
      let t ← template reference
      let vars ← globalsOf ctx
      return ofTemplate t (valuesFor vars ctx)

end Mailroom.Content
