import Mailroom.Proofs.Concurrency.Office

/-!
The scope of a program: what it may write, whatever it reads.  Main statements: every program of the
engine and of an operator stays within the items and jobs that it is given to work on.
-/

namespace Mailroom

open Program (Asks)
open Service (asks_bind asks_store asks_request asks_pure asks_found asks_throw asks_liftExcept
  asks_lift)

/-- What may be written: the items that may be moved out of a status, those whose messages may be
sent and kept in mind, and those that may be stamped; the jobs whose failed items may be renewed,
that may be moved from some statuses to another, and that may be counted; and the statuses of new
jobs. -/
structure Scope where
  items : Uuid → ItemStatus → Prop
  mail : Uuid → Prop
  stamps : Uuid → Prop
  renews : Uuid → Prop
  moves : Uuid → List JobStatus → JobStatus → Prop
  counts : Uuid → Prop
  creates : JobStatus → Prop

/-- A request writes no more than it may. -/
def Effect.Within (s : Scope) : Effect → Prop
  | .store (.queueItem id _) => s.items id .pending
  | .store (.failItem id source _) => s.items id source
  | .store (.confirmItem id) => s.items id .queued
  | .store (.checkItems ids) => ∀ id ∈ ids, s.stamps id
  | .store (.resetFailed job) => s.renews job
  | .store (.moveJob id sources target) => s.moves id sources target
  | .store (.refreshStats id) => s.counts id
  | .store (.createJob job _) => s.creates job.status
  | .storeLater _ => False
  | .mta _ (.submit message) =>
      ∀ id : Uuid, message.headers.get? Engine.itemHeader = some id.display → s.mail id
  | .keepAccepted id _ | .dropAccepted id => s.mail id
  | _ => True

variable {s : Scope}

/-- A status that a job finishes in when its items have been tried. -/
def JobStatus.IsOutcome (status : JobStatus) : Prop := status = .completed ∨ status = .failed

instance (status : JobStatus) : Decidable status.IsOutcome :=
  inferInstanceAs (Decidable (status = .completed ∨ status = .failed))

theorem JobStats.isOutcome_outcome (stats : JobStats) {outcome : JobStatus}
    (h : stats.outcome = some outcome) : outcome.IsOutcome := by
  unfold JobStats.outcome at h
  split at h
  · cases h
  · split at h
    · exact .inr (Option.some.inj h).symm
    · exact .inl (Option.some.inj h).symm

theorem JobControl.asks_get (id : Uuid) : Asks (Effect.Within s) (JobControl.get id).run :=
  asks_bind (asks_store trivial) fun _ => asks_found _ _

theorem JobControl.Move.asks_make {m : JobControl.Move} {id : Uuid}
    (hmoves : s.moves id m.sources m.target) : Asks (Effect.Within s) (m.make id).run := by
  apply asks_bind (JobControl.asks_get id)
  intro j
  apply asks_bind (asks_liftExcept _)
  intro status
  apply asks_bind (asks_store hmoves)
  intro moved
  cases moved with
  | some j => exact asks_pure j
  | none => exact asks_bind (JobControl.asks_get id) fun _ => asks_throw _

theorem JobControl.asks_retry {id : Uuid} {action : RetryAction}
    (hrenews : action = .failed → s.renews id)
    (hmoves : s.moves id Move.retry.sources .running) (hcounts : s.counts id) :
    Asks (Effect.Within s) (JobControl.retry id action).run := by
  apply asks_bind (JobControl.asks_get id)
  intro j
  apply asks_bind (asks_liftExcept _)
  intro _
  have hrest : Asks (Effect.Within s)
      (do
        let _ ← JobControl.Move.retry.make id
        let _ ← Service.store (.refreshStats id)
        JobControl.get id : Service JobError Job).run := by
    apply asks_bind (JobControl.Move.asks_make hmoves)
    intro _
    exact asks_bind (asks_store hcounts) fun _ => JobControl.asks_get id
  cases action with
  | failed => exact asks_bind (asks_store (hrenews rfl)) fun _ => hrest
  | pending => exact hrest

theorem JobRequest.asks_expand {kind : Effect → Prop}
    (hpage : ∀ list limit offset, kind (.store (.recipients list limit offset))) (x : Expansion)
    (list : Uuid) (pages offset : Nat) (items : List NewItem) (selection : Selection) :
    Asks kind (expand x list pages offset items selection).run := by
  induction pages generalizing offset items selection with
  | zero => exact asks_pure items
  | succ pages ih =>
      apply asks_bind (asks_store (hpage _ _ _))
      intro page
      split
      · exact asks_pure items
      · dsimp only
        split
        · exact asks_pure _
        · split
          · exact asks_pure _
          · exact ih _ _ _

theorem JobRequest.asks_create (r : JobRequest) (registry : Registry) (standard : StrategyKind)
    (hscheduled : s.creates .scheduled) (hrunning : s.creates .running) :
    Asks (Effect.Within s) (r.create registry standard).run := by
  apply asks_bind (asks_liftExcept _)
  intro servers
  apply asks_bind (asks_liftExcept _)
  intro _
  apply asks_bind (asks_store trivial)
  intro reply
  apply asks_bind (asks_found _ reply)
  intro campaign
  apply asks_bind (asks_store trivial)
  intro variants
  apply asks_bind (asks_expand (fun _ _ _ => trivial) _ _ _ _ _ _)
  intro items
  refine asks_bind (asks_request trivial) fun now => asks_store ?_
  change s.creates (firstStatus r.scheduledAt now)
  unfold firstStatus
  split
  · split
    · exact hscheduled
    · exact hrunning
  · exact hrunning

namespace Engine

theorem asks_promoteAll (hmoves : ∀ id, s.moves id [.scheduled] .running) (jobs : List Job) :
    Asks (Effect.Within s) (promoteAll jobs).run := by
  induction jobs with
  | nil => exact asks_pure 0
  | cons j rest ih =>
      apply asks_bind (asks_store (hmoves j.id))
      intro moved
      exact asks_bind ih fun _ => asks_pure _

theorem asks_promote (hmoves : ∀ id, s.moves id [.scheduled] .running) :
    Asks (Effect.Within s) promote.run := by
  apply asks_bind (asks_request trivial)
  intro now
  apply asks_bind (asks_store trivial)
  intro due
  exact asks_bind (asks_promoteAll hmoves due) fun _ => asks_pure _

/-- What a finished job is moved between when its outcome is revised. -/
theorem of_revisedOutcome?_eq_some {j : Job} {stats : JobStats} {current outcome : JobStatus}
    (h : revisedOutcome? j stats = some (current, outcome)) :
    j.status = .known current ∧ stats.outcome = some outcome ∧ current.IsOutcome := by
  cases hstatus : j.status with
  | other text => simp [revisedOutcome?, hstatus, Stored.value?] at h
  | known status =>
      cases houtcome : stats.outcome with
      | none => simp [revisedOutcome?, hstatus, Stored.value?, houtcome] at h
      | some other =>
          simp only [revisedOutcome?, hstatus, Stored.value?, houtcome, Option.bind_eq_bind,
            Option.bind_some, Option.ite_none_right_eq_some, Option.some.injEq,
            Prod.mk.injEq] at h
          rcases h with ⟨⟨hcurrent, -⟩, rfl, rfl⟩
          exact ⟨rfl, rfl, hcurrent⟩

theorem asks_reevaluate {id : Uuid} (hcounts : s.counts id)
    (hmoves : ∀ current outcome : JobStatus, current.IsOutcome → outcome.IsOutcome →
      s.moves id [current] outcome) : Asks (Effect.Within s) (reevaluate id).run := by
  apply asks_bind (asks_store hcounts)
  intro stats
  apply asks_bind (asks_store trivial)
  intro j
  split
  · exact asks_pure false
  · rename_i current outcome hrevised
    obtain ⟨row, -, hrevised⟩ := Option.bind_eq_some_iff.1 hrevised
    obtain ⟨-, houtcome, hcurrent⟩ := of_revisedOutcome?_eq_some hrevised
    have hmove := hmoves current outcome hcurrent (stats.isOutcome_outcome houtcome)
    exact asks_bind (asks_store hmove) fun _ => asks_pure _

theorem asks_reevaluateAll {jobs : List Uuid} (hcounts : ∀ id ∈ jobs, s.counts id)
    (hmoves : ∀ id ∈ jobs, ∀ current outcome : JobStatus, current.IsOutcome → outcome.IsOutcome →
      s.moves id [current] outcome) : Asks (Effect.Within s) (reevaluateAll jobs) := by
  induction jobs with
  | nil => trivial
  | cons id rest ih =>
      have hfirst : Asks (Effect.Within s) (reevaluate id).run :=
        asks_reevaluate (hcounts id List.mem_cons_self) (hmoves id List.mem_cons_self)
      apply Asks.bind hfirst
      intro changed
      refine Asks.bind (ih ?_ ?_) fun _ => trivial
      · exact fun other hother => hcounts other (List.mem_cons_of_mem id hother)
      · exact fun other hother => hmoves other (List.mem_cons_of_mem id hother)

theorem asks_review {jobs : List Uuid} {count : Nat} (hcounts : ∀ id ∈ distinct jobs, s.counts id)
    (hmoves : ∀ id ∈ distinct jobs, ∀ current outcome : JobStatus, current.IsOutcome →
      outcome.IsOutcome → s.moves id [current] outcome) :
    Asks (Effect.Within s)
      (do
        let finished ← ExceptT.lift (reevaluateAll (distinct jobs))
        return { reconciled := count, finished } : Service String TickReport).run :=
  asks_bind (asks_lift (asks_reevaluateAll hcounts hmoves)) fun _ => asks_pure _

theorem asks_recordStatus {i : Item} (hitem : s.items i.id .queued) (r : RemoteStatus) :
    Asks (Effect.Within s) (recordStatus i r) := by
  unfold recordStatus
  split
  · exact ⟨hitem, fun _ => trivial⟩
  · exact ⟨hitem, fun _ => trivial⟩
  · trivial

theorem asks_reconcileItem (e : Engine) {i : Item} (hitem : s.items i.id .queued) :
    Asks (Effect.Within s) (e.reconcileItem i) := by
  unfold reconcileItem
  split
  · trivial
  · split
    · refine ⟨trivial, fun answer => ?_⟩
      cases answer with
      | ok r => exact asks_recordStatus hitem r
      | error error => trivial
    · trivial

theorem asks_reconcileItems (e : Engine) {items : List Item}
    (hitems : ∀ i ∈ items, s.items i.id .queued ∧ s.stamps i.id) (hcounts : ∀ id, s.counts id)
    (hmoves : ∀ id, ∀ current outcome : JobStatus, current.IsOutcome → outcome.IsOutcome →
      s.moves id [current] outcome) :
    Asks (Effect.Within s) (e.reconcileItems items).run := by
  refine asks_bind (asks_store ?_) fun _ => ?_
  · intro id hid
    obtain ⟨i, hi, rfl⟩ := List.mem_map.1 hid
    exact (hitems i hi).2
  · refine asks_bind (asks_lift (Asks.forEach ?_)) fun moved => ?_
    · intro i hi
      exact asks_reconcileItem e (hitems i hi).1
    · exact asks_review (fun id _ => hcounts id) fun id _ => hmoves id

/-- The requests that record an item as taken, or keep it in mind, are of a kind. -/
structure Records (kind : Effect → Prop) (id : Uuid) : Prop where
  queue : ∀ remoteId, kind (.store (.queueItem id remoteId))
  sleep : ∀ milliseconds, kind (.sleep milliseconds)
  keep : ∀ remoteId, kind (.keepAccepted id remoteId)
  drop : kind (.dropAccepted id)

theorem Records.within {id : Uuid} (hitem : s.items id .pending) (hmail : s.mail id) :
    Records (Effect.Within s) id :=
  ⟨fun _ => hitem, fun _ => trivial, fun _ => hmail, hmail⟩

section

variable {kind : Effect → Prop} {id : Uuid}

theorem asks_writeQueued (h : Records kind id) (remoteId : String) (more attempt : Nat) :
    Asks kind (writeQueued id remoteId more attempt) := by
  induction more generalizing attempt with
  | zero => exact ⟨h.queue remoteId, fun _ => trivial⟩
  | succ more ih =>
      refine ⟨h.queue remoteId, fun answer => ?_⟩
      cases answer with
      | ok found => trivial
      | error failure => exact ⟨h.sleep _, fun _ => ih (attempt + 1)⟩

theorem asks_recordQueued (h : Records kind id) (remoteId : String) :
    Asks kind (recordQueued id remoteId) := by
  apply Asks.bind (asks_writeQueued h remoteId _ _)
  intro written
  cases written with
  | ok found => exact ⟨h.drop, fun _ => trivial⟩
  | error failure => exact ⟨h.keep remoteId, fun _ => trivial⟩

/-- Only items that are known to be taken are recorded. -/
theorem asks_recordKnown {known : List (Uuid × String)} {items : List Item}
    (hitems : ∀ i ∈ items, known.lookup i.id ≠ none → Records kind i.id) :
    Asks kind (recordKnown known items) := by
  induction items with
  | nil => trivial
  | cons i rest ih =>
      have hrest := ih fun k hk => hitems k (List.mem_cons_of_mem i hk)
      unfold recordKnown
      split
      · exact Asks.bind hrest fun _ => trivial
      · rename_i remoteId hknown
        apply Asks.bind (asks_recordQueued (hitems i List.mem_cons_self (by simp [hknown])) _)
        intro outcome
        exact Asks.bind hrest fun _ => trivial

end

/-- To resolve content is to look for a template and for the global variables. -/
theorem asks_resolve {kind : Effect → Prop} (hid : ∀ id, kind (.store (.template id)))
    (hname : ∀ name, kind (.store (.templateByName name))) (hglobals : kind (.store .globals))
    (source : ContentSource) (ctx : RenderContext) :
    Asks kind (Content.resolve source ctx).run := by
  unfold Content.resolve
  split
  · exact asks_found _ _
  · rename_i reference _
    have hlookUp : Asks kind (Content.lookUp reference : Service DispatchError _).run := by
      cases reference with
      | byId id => exact asks_store (hid id)
      | byName name => exact asks_store (hname name)
    have htemplate : Asks kind (Content.template reference).run :=
      asks_bind hlookUp fun _ => asks_found _ _
    apply asks_bind htemplate
    intro t
    refine asks_bind ?_ fun vars => asks_pure _
    unfold Content.globalsOf
    split
    · exact asks_pure _
    · exact asks_store hglobals

theorem asks_content (c : JobContext) (i : Item) (r : Recipient) :
    Asks (Effect.Within s) (c.content i r).run :=
  Asks.bind (asks_resolve (fun _ => trivial) (fun _ => trivial) trivial _ _) fun _ => trivial

theorem asks_loadContext (j : Job) : Asks (Effect.Within s) (loadContext j).run := by
  apply asks_bind (asks_store trivial)
  intro reply
  apply asks_bind (asks_found _ reply)
  intro campaign
  apply asks_bind (asks_store trivial)
  intro variants
  exact asks_bind (asks_store trivial) fun _ => asks_pure _

theorem jobHeader_of_message (c : JobContext) (i : Item) (r : Recipient)
    (content : RenderedContent) :
    (c.message i r content).headers.get? jobHeader = some i.jobId.display := by
  have hne : jobHeader ≠ itemHeader := by decide
  simp [JobContext.message, Dictionary.ofList, hne]

theorem itemHeader_of_message (c : JobContext) (i : Item) (r : Recipient)
    (content : RenderedContent) :
    (c.message i r content).headers.get? itemHeader = some i.id.display := by
  simp [JobContext.message, Dictionary.ofList]

/-- The header of a message tells items apart. -/
theorem asks_sendItem (e : Engine) (c : JobContext) {i : Item} (hmail : s.mail i.id) :
    Asks (Effect.Within s) (e.sendItem c i).run := by
  apply asks_bind (asks_store trivial)
  intro reply
  apply asks_bind (asks_found _ reply)
  intro r
  apply asks_bind (asks_content c i r)
  intro content
  split
  · exact asks_throw _
  · have hwithin : (Effect.mta i.server (.submit (c.message i r content))).Within s := by
      intro id hid
      rw [itemHeader_of_message, Option.some.injEq] at hid
      exact Uuid.display_injective hid ▸ hmail
    apply asks_bind (asks_request hwithin)
    intro answer
    cases answer with
    | ok remoteId => exact asks_pure remoteId
    | error error => exact asks_throw _

theorem asks_attempt (e : Engine) (context : Except String JobContext) {i : Item}
    (hmail : s.mail i.id) : Asks (Effect.Within s) (e.attempt context i) := by
  cases context with
  | ok c => exact asks_sendItem e c hmail
  | error text => trivial

theorem asks_dispatchItem (e : Engine) (context : Except String JobContext) {i : Item}
    (hitem : s.items i.id .pending) (hmail : s.mail i.id) :
    Asks (Effect.Within s) (e.dispatchItem context i) := by
  apply Asks.bind (asks_attempt e context hmail)
  intro sent
  cases sent with
  | ok remoteId => exact asks_recordQueued (.within hitem hmail) remoteId
  | error text => exact ⟨hitem, fun _ => trivial⟩

theorem asks_sendLeft (e : Engine) {j : Job} (hcounts : s.counts j.id) {left : List Item}
    (hleft : ∀ i ∈ left, s.items i.id .pending ∧ s.mail i.id) (recorded : TickReport) :
    Asks (Effect.Within s) (e.sendLeft j left recorded).run := by
  unfold sendLeft
  split
  · exact asks_bind (asks_store hcounts) fun _ => asks_pure _
  · apply asks_bind (asks_lift (asks_loadContext j))
    intro context
    refine asks_bind (asks_lift (Asks.forEach fun i hi => ?_)) fun outcomes => ?_
    · obtain ⟨hitem, hmail⟩ := hleft i hi
      exact asks_dispatchItem e context hitem hmail
    · exact asks_bind (asks_store hcounts) fun _ => asks_pure _

theorem asks_finish {j : Job} (hcounts : s.counts j.id)
    (hmoves : ∀ outcome : JobStatus, outcome.IsOutcome → s.moves j.id [.running] outcome) :
    Asks (Effect.Within s) (finish j).run := by
  apply asks_bind (asks_store hcounts)
  intro stats
  split
  · exact asks_pure _
  · rename_i outcome houtcome
    have hmove := hmoves outcome (stats.isOutcome_outcome houtcome)
    exact asks_bind (asks_store hmove) fun _ => asks_pure _

end Engine

/-- What the engine may write: it renews and makes nothing, and it moves jobs from being scheduled
to running, from running to an outcome, and from one outcome to another. -/
def Scope.engine : Scope where
  items _ _ := True
  mail _ := True
  stamps _ := True
  renews _ := False
  moves _ sources target :=
    (sources = [.scheduled] ∧ target = .running) ∨
      (target.IsOutcome ∧
        (sources = [.running] ∨ ∃ current : JobStatus, sources = [current] ∧ current.IsOutcome))
  counts _ := True
  creates _ := False

namespace Engine

variable (e : Engine)

theorem asks_drive (hitems : ∀ id, s.items id .pending ∧ s.mail id) (hcounts : ∀ id, s.counts id)
    (hmoves : ∀ id, ∀ outcome : JobStatus, outcome.IsOutcome → s.moves id [.running] outcome)
    (j : Job) : Asks (Effect.Within s) (e.drive j).run := by
  apply asks_bind (asks_store trivial)
  intro items
  split
  · exact asks_finish (hcounts j.id) (hmoves j.id)
  · apply asks_bind (asks_request trivial)
    intro known
    have hrecords : ∀ i ∈ items, known.lookup i.id ≠ none → Records (Effect.Within s) i.id :=
      fun i _ _ => .within (hitems i.id).1 (hitems i.id).2
    apply asks_bind (asks_lift (asks_recordKnown hrecords))
    intro out
    exact asks_sendLeft e (hcounts j.id) (fun i _ => hitems i.id) out.2

theorem asks_unlessStopping (jobs : List Job) :
    Asks (Effect.Within s) (unlessStopping jobs) := by
  induction jobs with
  | nil => trivial
  | cons j rest ih =>
      have hasked : Asks (Effect.Within s) (Program.request .stopping) :=
        ⟨trivial, fun _ => trivial⟩
      apply Asks.bind hasked
      intro stopping
      cases stopping with
      | true => trivial
      | false => exact Asks.bind ih fun _ => trivial

theorem asks_driveAll (hitems : ∀ id, s.items id .pending ∧ s.mail id)
    (hcounts : ∀ id, s.counts id)
    (hmoves : ∀ id, ∀ outcome : JobStatus, outcome.IsOutcome → s.moves id [.running] outcome) :
    Asks (Effect.Within s) e.driveAll.run := by
  apply asks_bind (asks_store trivial)
  intro jobs
  apply asks_bind (asks_lift (asks_unlessStopping jobs))
  intro begun
  apply asks_bind (asks_lift (Asks.forEach fun j _ => asks_drive e hitems hcounts hmoves j))
  intro reports
  exact asks_pure _

theorem asks_reconcile (hitems : ∀ id, s.items id .queued) (hstamps : ∀ id, s.stamps id)
    (hcounts : ∀ id, s.counts id)
    (hmoves : ∀ id, ∀ current outcome : JobStatus, current.IsOutcome → outcome.IsOutcome →
      s.moves id [current] outcome) : Asks (Effect.Within s) e.reconcile.run := by
  apply asks_bind (asks_store trivial)
  intro items
  split
  · exact asks_pure _
  · exact asks_reconcileItems e (fun i _ => ⟨hitems i.id, hstamps i.id⟩) hcounts hmoves

theorem asks_tick : Asks (Effect.Within .engine) e.tick := by
  have hpromote : Asks (Effect.Within .engine) promote.run :=
    asks_promote fun _ => .inl ⟨rfl, rfl⟩
  have hreconcile : Asks (Effect.Within .engine) e.reconcile.run := by
    refine asks_reconcile e (fun _ => trivial) (fun _ => trivial) (fun _ => trivial) ?_
    exact fun id current outcome hcurrent houtcome =>
      .inr ⟨houtcome, .inr ⟨current, rfl, hcurrent⟩⟩
  have hdrive : Asks (Effect.Within .engine) e.driveAll.run := by
    refine asks_driveAll e (fun _ => ⟨trivial, trivial⟩) (fun _ => trivial) ?_
    exact fun id outcome houtcome => .inr ⟨houtcome, .inl rfl⟩
  refine Asks.bind (Asks.bind hpromote fun _ => trivial) fun promoted => ?_
  refine Asks.bind (Asks.bind hreconcile fun _ => trivial) fun reconciled => ?_
  exact Asks.bind (Asks.bind hdrive fun _ => trivial) fun driven => trivial

end Engine

def OperatorCall.move? : OperatorCall → Option (Uuid × JobControl.Move)
  | create _ _ _ => none
  | pause job => some (job, .pause)
  | resume job => some (job, .resume)
  | cancel job => some (job, .cancel)
  | retry job _ => some (job, .retry)

/-- What may be written for an operator: a job is moved as was asked for, and a retry may count it
and renew its failed items. -/
def OperatorCall.desk (call : OperatorCall) : Scope where
  items _ _ := False
  mail _ := False
  stamps _ := False
  renews job := call = .retry job .failed
  moves job sources target :=
    ∃ m, call.move? = some (job, m) ∧ sources = m.sources ∧ target = m.target
  counts job := ∃ action, call = .retry job action
  creates status := status = .scheduled ∨ status = .running

theorem OperatorCall.asks_desk (call : OperatorCall) :
    Asks (Effect.Within call.desk) call.program := by
  cases call with
  | create r registry standard => exact r.asks_create registry standard (.inl rfl) (.inr rfl)
  | pause job => exact JobControl.Move.asks_make ⟨.pause, rfl, rfl, rfl⟩
  | resume job => exact JobControl.Move.asks_make ⟨.resume, rfl, rfl, rfl⟩
  | cancel job => exact JobControl.Move.asks_make ⟨.cancel, rfl, rfl, rfl⟩
  | retry job action =>
      exact JobControl.asks_retry (fun haction => congrArg _ haction) ⟨.retry, rfl, rfl, rfl⟩
        ⟨action, rfl⟩

def Actor.scope : Actor → Scope
  | engine => .engine
  | operator _ call => call.desk

/-- Whoever acts in an office stays within what it may write. -/
theorem Office.Reachable.within {e : Engine} {around : Surroundings} {t : Tables} {o : Office}
    (ho : Reachable e around t o) : ∀ v ∈ o.scene.history, v.effect.Within v.actor.scope := by
  suffices h : (∀ v ∈ o.scene.history, v.effect.Within v.actor.scope) ∧
      o.tick.Asks (Effect.Within .engine) ∧
        ∀ c ∈ o.calls, c.2.Asks (Effect.Within c.1.desk) from h.1
  induction ho with
  | refl => exact ⟨by simp [opening], trivial, by simp [opening]⟩
  | tail _ hstep ih =>
      obtain ⟨hpast, htick, hcalls⟩ := ih
      cases hstep with
      | beginTick hidle => exact ⟨hpast, e.asks_tick, hcalls⟩
      | beginCall call =>
          refine ⟨hpast, htick, fun c hc => ?_⟩
          rcases List.mem_append.1 hc with hc | hc
          · exact hcalls c hc
          · obtain rfl := List.mem_singleton.1 hc
            exact call.asks_desk
      | tick hturn hacts =>
          obtain ⟨hwithin, hleft⟩ := htick.turn hturn
          refine ⟨?_, hleft, hcalls⟩
          rw [Surroundings.acts_history hacts]
          exact List.forall_mem_cons.2 ⟨hwithin, hpast⟩
      | call hcall hturn hacts =>
          obtain ⟨hwithin, hleft⟩ := (hcalls _ (List.mem_of_getElem? hcall)).turn hturn
          refine ⟨?_, htick, fun c hc => ?_⟩
          · rw [Surroundings.acts_history hacts]
            exact List.forall_mem_cons.2 ⟨hwithin, hpast⟩
          · rcases List.mem_or_eq_of_mem_set hc with hc | rfl
            · exact hcalls c hc
            · exact hleft

theorem Office.Reachable.within_of_acts {e : Engine} {around : Surroundings} {t : Tables}
    {o : Office} {actor : Actor} {effect : Effect} {answer : effect.Answer} {u : Scene}
    (ho : Reachable e around t o) (hacts : around.acts actor effect answer u o.scene) :
    effect.Within actor.scope := by
  refine ho.within ⟨actor, effect, answer, u.tables, o.scene.tables⟩ ?_
  rw [Surroundings.acts_history hacts]
  exact List.mem_cons_self

/-- All that the engine and operators may write: nothing in the background. -/
def Scope.all : Scope where
  items _ _ := True
  mail _ := True
  stamps _ := True
  renews _ := True
  moves _ _ _ := True
  counts _ := True
  creates _ := True

theorem Effect.Within.all {effect : Effect} (h : effect.Within s) : effect.Within .all := by
  cases effect with
  | store call =>
      cases call with
      | checkItems ids => exact fun _ _ => trivial
      | _ => trivial
  | storeLater call => exact absurd h id
  | mta server call =>
      cases call with
      | submit message => exact fun _ _ => trivial
      | _ => trivial
  | _ => trivial

theorem Engine.asks_all (e : Engine) : Asks (Effect.Within .all) e.tick :=
  e.asks_tick.mono fun _ h => h.all

theorem OperatorCall.asks_all (call : OperatorCall) : Asks (Effect.Within .all) call.program :=
  call.asks_desk.mono fun _ h => h.all

end Mailroom
