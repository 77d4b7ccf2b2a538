import Mailroom.Engine.Dispatch
import Mailroom.Proofs.Concurrency.Alone
import Mailroom.Proofs.Concurrency.Completion
import Mailroom.Proofs.Content.Placeholders
import Mailroom.Proofs.Limits.Calls

/-!
What the content of a message says.  A template is filled in with values from five sources, of which
the more particular one counts.  Main statements: a name has the value of the latest layer that binds
it, and resolving a content source comes to its template filled in with these values, wherever the
global ones come from, or to the texts that it brings itself.
-/

namespace Mailroom

namespace Dictionary

variable {base top d : Dictionary}

/-- No name is bound twice. -/
def IsDistinct (d : Dictionary) : Prop := (d.entries.map Prod.fst).Nodup

theorem isDistinct_empty : empty.IsDistinct := List.nodup_nil

theorem IsDistinct.insert (h : d.IsDistinct) (name value : String) :
    (d.insert name value).IsDistinct :=
  Limiter.nodup_map_putBy Prod.fst (name, value) h

theorem IsDistinct.override (h : base.IsDistinct) (top : Dictionary) :
    (base.override top).IsDistinct :=
  List.foldlRecOn top.entries _ h fun _ hd entry _ => hd.insert entry.1 entry.2

theorem isDistinct_ofList (entries : List (String × String)) : (ofList entries).IsDistinct :=
  isDistinct_empty.override ⟨entries⟩

/-- What is inserted entry by entry is found before what was there. -/
theorem get?_foldl_insert {entries : List (String × String)} (h : (entries.map Prod.fst).Nodup)
    (d : Dictionary) (name : String) :
    (entries.foldl (fun d (name, value) => d.insert name value) d).get? name =
      (entries.lookup name).or (d.get? name) := by
  induction entries generalizing d with
  | nil => rfl
  | cons entry rest ih =>
      obtain ⟨other, value⟩ := entry
      simp only [List.map_cons, List.nodup_cons] at h
      obtain ⟨hfresh, hrest⟩ := h
      rw [List.foldl_cons, ih hrest, get?_insert, List.lookup_cons]
      by_cases hname : name = other
      · -- no later entry binds the name again
        have hlast : rest.lookup name = none := by
          rw [List.lookup_eq_none_iff]
          intro entry hentry
          rw [bne_iff_ne]
          rintro rfl
          exact hfresh (hname ▸ List.mem_map_of_mem hentry)
        simp [hname ▸ hlast, hname]
      · simp [beq_false_of_ne hname, hname]

theorem get?_override (h : top.IsDistinct) (base : Dictionary) (name : String) :
    (base.override top).get? name = (top.get? name).or (base.get? name) :=
  get?_foldl_insert h base name

end Dictionary

theorem Json.isDistinct_toDictionary (values : Json) : values.toDictionary.IsDistinct := by
  cases values with
  | obj members => exact Dictionary.isDistinct_ofList _
  | _ => exact Dictionary.isDistinct_empty

/-- The value of a key: the address or the name of the recipient if the key stands for one that is
given, else the value in the most particular layer that has one. -/
def RenderContext.value? (ctx : RenderContext) (globals : Dictionary) (key : String) :
    Option String :=
  (if key = "email" ∨ key = "recipient_email" then ctx.email else none) <|>
    (if key = "name" ∨ key = "recipient_name" then ctx.name else none) <|>
    ctx.recipient.get? key <|> ctx.campaign.get? key <|> globals.get? key

namespace Content

variable {vars : Dictionary} {ctx : RenderContext}

theorem get?_bindAll (names : List String) (value : Option String) (vars : Dictionary)
    (key : String) :
    (bindAll names value vars).get? key =
      (if key ∈ names then value else none).or (vars.get? key) := by
  cases value with
  | none => simp [bindAll]
  | some value =>
      simp only [bindAll]
      induction names generalizing vars with
      | nil => rfl
      | cons name names ih =>
          rw [List.foldl_cons, ih, Dictionary.get?_insert]
          by_cases hmem : key ∈ names
          · simp [hmem]
          · by_cases hfirst : key = name
            · subst hfirst
              simp [hmem]
            · simp [hmem, hfirst]

theorem get?_merge (hcampaign : ctx.campaign.IsDistinct) (hrecipient : ctx.recipient.IsDistinct)
    (globals : Dictionary) (key : String) :
    (merge globals ctx.campaign ctx.recipient).get? key =
      (ctx.recipient.get? key).or ((ctx.campaign.get? key).or (globals.get? key)) := by
  rw [merge, Dictionary.get?_override hrecipient, Dictionary.get?_override hcampaign]

/-- The names that stand for the recipient's address are not among those for its name, so that it
does not matter which of the two are bound first. -/
theorem get?_valuesFor (hcampaign : ctx.campaign.IsDistinct) (hrecipient : ctx.recipient.IsDistinct)
    (globals : Dictionary) (key : String) :
    (valuesFor globals ctx).get? key = ctx.value? globals key := by
  rw [valuesFor, get?_bindAll, get?_bindAll, get?_merge hcampaign hrecipient]
  simp only [List.mem_cons, List.not_mem_nil, or_false, RenderContext.value?]
  by_cases hemail : key = "email" ∨ key = "recipient_email"
  · have hname : ¬ (key = "name" ∨ key = "recipient_name") := by
      rcases hemail with rfl | rfl <;> decide
    simp [hemail, hname]
  · simp [hemail]

/-- A text with every placeholder of a key that has a value replaced by it, all at once, and with
everything else as it is. -/
def IsFilled (value? : String → Option String) (template filled : String) : Prop :=
  ∃ vars : Dictionary, (∀ key, vars.get? key = value? key) ∧
    ∃ piece : Nat → List Char,
      (∀ n < template.toList.length, Becomes vars template.toList n (piece n)) ∧
        filled.toList = (List.range template.toList.length).flatMap piece

/-- Content that is a template filled in: each of its texts, and no text that it has not. -/
structure IsFilledFrom (value? : String → Option String) (t : Template)
    (content : RenderedContent) : Prop where
  subject : IsFilled value? t.subject content.subject
  html : Option.Rel (IsFilled value?) t.html content.html
  text : Option.Rel (IsFilled value?) t.text content.text

variable {value? : String → Option String}

theorem isFilled_render (hvalue : ∀ key, vars.get? key = value? key) (template : String) :
    IsFilled value? template (render template vars) := by
  have hpiece : ∀ n, ∃ piece, n < template.toList.length → Becomes vars template.toList n piece := by
    intro n
    by_cases hn : n < template.toList.length
    · obtain ⟨piece, hpiece⟩ := exists_becomes vars hn
      exact ⟨piece, fun _ => hpiece⟩
    · exact ⟨[], fun h => absurd h hn⟩
  choose piece hpiece using hpiece
  refine ⟨vars, hvalue, piece, hpiece, ?_⟩
  rw [render, String.toList_ofList, renderChars_eq_flatMap hpiece]

theorem isFilledFrom_ofTemplate (hvalue : ∀ key, vars.get? key = value? key) (t : Template) :
    IsFilledFrom value? t (ofTemplate t vars) := by
  have hoption : ∀ text : Option String,
      Option.Rel (IsFilled value?) text (text.map fun s => render s vars) := by
    intro text
    cases text with
    | none => exact .none
    | some s => exact .some (isFilled_render hvalue s)
  exact ⟨isFilled_render hvalue t.subject, hoption t.html, hoption t.text⟩

end Content

def Tables.templateOf (tables : Tables) : TemplateRef → Option Template
  | .byId id => tables.templates.find? fun t => t.id == id
  | .byName name => tables.templates.find? fun t => t.name == name

/-- A service that nobody interrupts and the store does not fail comes to this result and to no
other. -/
structure Service.Returns {ε α : Type} (actor : Actor) (x : Service ε α) (w : Scene)
    (result : Except ε α) : Prop where
  comes : ∃ v, x.run.Completes (Surroundings.reliable.acts actor) w result v
  only : ∀ other v, x.run.Completes (Surroundings.reliable.acts actor) w other v → other = result

theorem Service.returns_of_only {ε α : Type} {actor : Actor} {x : Service ε α} {w : Scene}
    {result : Except ε α}
    (honly : ∀ other v, x.run.Completes (Surroundings.reliable.acts actor) w other v →
      other = result) : x.Returns actor w result := by
  have hrun := Circumstances.completes (Rehearsal.reliable_fair "waiting") actor x.run w
  exact ⟨⟨_, honly _ _ hrun ▸ hrun⟩, honly⟩

theorem Service.Returns.unique {ε α : Type} {actor : Actor} {x : Service ε α} {w : Scene}
    {first second : Except ε α} (h : x.Returns actor w first) (h' : x.Returns actor w second) :
    first = second := by
  obtain ⟨v, hrun⟩ := h.comes
  exact h'.only _ _ hrun

/-- A source that brings a text of its own. -/
def ContentSource.HasText (source : ContentSource) : Prop :=
  ∃ s, s ≠ "" ∧ (source.subject = some s ∨ source.html = some s ∨ source.text = some s)

namespace Content

open Program (completes_pure)

variable {actor : Actor} {w : Scene}

theorem isPresent_iff (field : Option String) :
    isPresent field = true ↔ ∃ s, s ≠ "" ∧ field = some s := by
  cases field <;> simp [isPresent]

theorem direct?_eq (source : ContentSource) [Decidable source.HasText] :
    direct? source = if source.HasText then
      some ⟨source.subject.getD "", source.html, source.text⟩ else none := by
  have hsome : (isPresent source.subject || isPresent source.html || isPresent source.text) = true ↔
      source.HasText := by
    simp only [Bool.or_eq_true, isPresent_iff, ContentSource.HasText, and_or_left, exists_or,
      or_assoc]
  simp only [direct?, hsome]

/-- What the content of a source comes to. -/
def resolution (tables : Tables) (source : ContentSource) (ctx : RenderContext) :
    Except DispatchError RenderedContent :=
  match source.template with
  | none =>
      match direct? source with
      | some content => .ok content
      | none =>
          .error (.invalidRequest "subject, html or text is required when no template is given")
  | some reference =>
      match tables.templateOf reference with
      | some t => .ok (ofTemplate t (valuesFor (ctx.globals.getD tables.globals) ctx))
      | none => .error (.templateNotFound reference.display)

theorem gives_lookUp (reference : TemplateRef) :
    (lookUp reference : Service DispatchError _).Gives actor w fun found v =>
      found = w.tables.templateOf reference ∧ v.tables = w.tables := by
  cases reference with
  | byId id => exact .store fun _ _ htables => ⟨rfl, htables⟩
  | byName name => exact .store fun _ _ htables => ⟨rfl, htables⟩

theorem gives_globalsOf (ctx : RenderContext) :
    (globalsOf ctx : Service DispatchError _).Gives actor w fun vars _ =>
      vars = ctx.globals.getD w.tables.globals := by
  unfold globalsOf
  cases ctx.globals with
  | some vars => exact .pure rfl
  | none => exact .store fun _ _ _ => rfl

theorem returns_resolve (source : ContentSource) (ctx : RenderContext) :
    (resolve source ctx).Returns actor w (resolution w.tables source ctx) := by
  apply Service.returns_of_only
  intro other v hrun
  unfold resolve at hrun
  unfold resolution
  cases htemplate : source.template with
  | none =>
      simp only [htemplate] at hrun ⊢
      cases hdirect : direct? source with
      | some content =>
          rw [hdirect] at hrun
          exact (completes_pure.1 hrun).1
      | none =>
          rw [hdirect] at hrun
          exact (completes_pure.1 hrun).1
  | some reference =>
      simp only [htemplate, template, bind_assoc] at hrun ⊢
      rcases Service.completes_of_bind hrun with ⟨found, u, hlookUp, hrest⟩ | ⟨error, herror, -⟩
      · obtain ⟨_, hfound, rfl, htables⟩ := (gives_lookUp reference).completes hlookUp
        obtain rfl := Except.ok.inj hfound
        rcases Service.completes_found_bind.1 hrest with ⟨t, ht, hrest⟩ | ⟨hnone, rfl, -⟩
        · rw [ht]
          rcases Service.completes_of_bind hrest with ⟨vars, _, hvars, hend⟩ | ⟨error, herror, -⟩
          · obtain ⟨_, hvars, rfl⟩ := (gives_globalsOf ctx).completes hvars
            obtain rfl := Except.ok.inj hvars
            rw [htables] at hend
            exact (completes_pure.1 hend).1
          · obtain ⟨_, hvars, -⟩ := (gives_globalsOf ctx).completes herror
            cases hvars
        · rw [hnone]
      · obtain ⟨_, hfound, -⟩ := (gives_lookUp reference).completes herror
        cases hfound

/-- Resolving a source whose template is found comes to this template, with every placeholder
replaced by the value that its key has in the context's layers; whether the context brings the
global values of the store or has them fetched makes no difference.  A source without a template
comes to the texts that it brings itself, as they are, if there is any, and else to an error. -/
theorem resolve_layers (actor : Actor) (w : Scene) {ctx : RenderContext}
    (hcampaign : ctx.campaign.IsDistinct) (hrecipient : ctx.recipient.IsDistinct) :
    (∀ source reference t, source.template = some reference →
      w.tables.templateOf reference = some t →
      ∃ content, (resolve source ctx).Returns actor w (.ok content) ∧
        IsFilledFrom (ctx.value? (ctx.globals.getD w.tables.globals)) t content) ∧
    (∀ source result,
      (resolve source { ctx with globals := some w.tables.globals }).Returns actor w result ↔
        (resolve source { ctx with globals := none }).Returns actor w result) ∧
    (∀ source, source.template = none →
      (source.HasText → (resolve source ctx).Returns actor w
        (.ok ⟨source.subject.getD "", source.html, source.text⟩)) ∧
      (¬ source.HasText → ∃ error, (resolve source ctx).Returns actor w (.error error))) := by
  refine ⟨?_, ?_, ?_⟩
  · intro source reference t htemplate hfound
    have hreturns : (resolve source ctx).Returns actor w _ := returns_resolve source ctx
    simp only [resolution, htemplate, hfound] at hreturns
    exact ⟨_, hreturns, isFilledFrom_ofTemplate (get?_valuesFor hcampaign hrecipient _) t⟩
  · intro source result
    have hbrought : (resolve source { ctx with globals := some w.tables.globals }).Returns actor w _ :=
      returns_resolve source _
    have hfetched : (resolve source { ctx with globals := none }).Returns actor w _ :=
      returns_resolve source _
    have hsame : resolution w.tables source { ctx with globals := some w.tables.globals } =
        resolution w.tables source { ctx with globals := none } := rfl
    rw [hsame] at hbrought
    constructor
    · intro hresult
      rwa [hresult.unique hbrought]
    · intro hresult
      rwa [hresult.unique hfetched]
  · intro source htemplate
    classical
    have hreturns : (resolve source ctx).Returns actor w _ := returns_resolve source ctx
    simp only [resolution, htemplate, direct?_eq] at hreturns
    constructor
    · intro htext
      rwa [if_pos htext] at hreturns
    · intro htext
      rw [if_neg htext] at hreturns
      exact ⟨_, hreturns⟩

namespace Greeting

def greeting : Template :=
  ⟨⟨7⟩, "greeting", "News for \x7b\x7b name \x7d\x7d", none,
    some "\x7b\x7bcity\x7d\x7d: \x7b\x7b email \x7d\x7d, \x7b\x7bteam\x7d\x7d", ⟨0, 0⟩, ⟨0, 0⟩⟩

def tables : Tables :=
  { templates := [greeting], globals := .ofList [("city", "Rome"), ("name", "everyone")] }

/-- Someone without a name, in a campaign that has one for all of its recipients. -/
def context : RenderContext where
  campaign := Json.toDictionary (.obj [("name", .str "friends"), ("email", .str "office")])
  recipient := Json.toDictionary (.obj [("city", .str "Oslo")])
  email := some "reader@there.example"

end Greeting

/-- The address counts before the campaign's value, and the campaign's before the global one. -/
theorem greeting_resolves :
    Greeting.context.campaign.IsDistinct ∧ Greeting.context.recipient.IsDistinct ∧
      Greeting.tables.templateOf (.byName "greeting") = some Greeting.greeting ∧
      (["name", "city", "email", "team"].map (Greeting.context.value? Greeting.tables.globals) =
        [some "friends", some "Oslo", some "reader@there.example", none]) ∧
      ∃ content, (resolve { template := some (.byName "greeting") } Greeting.context).Returns
          .engine ⟨Greeting.tables, [], []⟩ (.ok content) ∧
        IsFilledFrom (Greeting.context.value? Greeting.tables.globals) Greeting.greeting content :=
  ⟨Json.isDistinct_toDictionary _, Json.isDistinct_toDictionary _, rfl, by decide,
    (resolve_layers .engine ⟨Greeting.tables, [], []⟩ (Json.isDistinct_toDictionary _)
      (Json.isDistinct_toDictionary _)).1 _ (.byName "greeting") Greeting.greeting rfl rfl⟩

end Content

end Mailroom
