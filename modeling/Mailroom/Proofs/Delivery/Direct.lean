import Mailroom.Proofs.Concurrency.Alone
import Mailroom.Proofs.Concurrency.Completion
import Mailroom.Proofs.Concurrency.Scope
import Mailroom.Proofs.Delivery.Record
import Mailroom.Send.Direct

/-!
Direct sends: what the caller is told, what is recorded and what servers took agree.  Main
statement: a direct send comes to exactly one of three endings, and what the caller is told does not
depend on whether the record of it can be completed.
-/

namespace Mailroom

open Program (Asks Completes completes_pure completes_request)
open Service (asks_bind asks_found asks_liftExcept asks_pure asks_request asks_store asks_throw
  completes_bind completes_liftExcept completes_of_bind completes_store)

variable {around : Surroundings} {actor : Actor} {s s' u v w : Scene} {α : Type} {p : Program α}
  {a : α}

namespace Scene

/-- From one scene to another, servers take these messages, the latest first. -/
def Takes (s s' : Scene) (taken : List (String × Message × String)) : Prop :=
  ∃ events, s'.history = events ++ s.history ∧ events.filterMap Event.took? = taken

theorem Takes.trans {earlier later : List (String × Message × String)} (h : s.Takes u earlier)
    (h' : u.Takes v later) : s.Takes v (later ++ earlier) := by
  obtain ⟨events, hu, rfl⟩ := h
  obtain ⟨more, hv, rfl⟩ := h'
  exact ⟨more ++ events, by rw [hv, hu, List.append_assoc], List.filterMap_append⟩

theorem Takes.history_suffix {taken : List (String × Message × String)} (h : s.Takes s' taken) :
    s.history <:+ s'.history := by
  obtain ⟨events, hs', -⟩ := h
  exact ⟨events, hs'.symm⟩

theorem takes_of_acts {e : Effect} {answer : e.Answer} (hacts : around.acts actor e answer s s') :
    s.Takes s' (Event.took? ⟨actor, e, answer, s.tables, s'.tables⟩).toList := by
  refine ⟨[⟨actor, e, answer, s.tables, s'.tables⟩], Surroundings.acts_history hacts, ?_⟩
  cases htook : Event.took? ⟨actor, e, answer, s.tables, s'.tables⟩ <;> simp [htook]

/-- From one scene to another no table changes, and no server is offered a message. -/
structure Unmoved (s s' : Scene) : Prop where
  tables : s'.tables = s.tables
  history : ∃ events, s'.history = events ++ s.history ∧ ∀ v ∈ events, v.offered? = none

theorem Unmoved.refl (s : Scene) : s.Unmoved s := ⟨rfl, [], rfl, by simp⟩

theorem Unmoved.trans (h : s.Unmoved u) (h' : u.Unmoved v) : s.Unmoved v := by
  obtain ⟨events, hu, hquiet⟩ := h.history
  obtain ⟨more, hv, hquiet'⟩ := h'.history
  refine ⟨h'.tables.trans h.tables, more ++ events, by rw [hv, hu, List.append_assoc], ?_⟩
  exact List.forall_mem_append.2 ⟨hquiet', hquiet⟩

theorem Unmoved.of_failure {call : StoreCall} {failure : Failure}
    (hacts : around.acts actor (.store call) (.error failure) s s') : s.Unmoved s' :=
  ⟨Surroundings.acts_error hacts, [_], Surroundings.acts_history hacts, by simp [Event.offered?]⟩

/-- What was taken was offered. -/
theorem Unmoved.takes (h : s.Unmoved s') : s.Takes s' [] := by
  obtain ⟨events, hs', hquiet⟩ := h.history
  refine ⟨events, hs', List.filterMap_eq_nil_iff.2 fun v hv => ?_⟩
  have hoffered := hquiet v hv
  obtain ⟨_, effect, answer, _, _⟩ := v
  cases effect with
  | mta server call =>
      cases call with
      | submit message => cases hoffered
      | _ => rfl
  | _ => rfl

end Scene

/-- A request that changes no table and offers nothing to a server. -/
def Effect.Reads : Effect → Prop
  | .store call => ∀ (t : Tables) (now : Timestamp), (t.serve now call).2 = t
  | .storeLater _ => False
  | .mta _ _ => False
  | _ => True

theorem Effect.Reads.unmoved {e : Effect} {answer : e.Answer} (he : e.Reads)
    (hacts : around.acts actor e answer s s') : s.Unmoved s' := by
  have hhistory := Surroundings.acts_history hacts
  refine ⟨?_, [_], hhistory, ?_⟩
  · rcases Surroundings.acts_tables hacts with htables | ⟨call, now, rfl | rfl, htables⟩
    · exact htables
    · rw [htables, he]
    · cases he
  · cases e with
    | mta server call => cases he
    | _ => simp [Event.offered?]

theorem Program.Asks.unmoved (hp : p.Asks Effect.Reads)
    (hrun : p.Completes (around.acts actor) s a s') : s.Unmoved s' := by
  induction hrun with
  | ends hends => exact .refl _
  | turn hturn hacts _ ih =>
      obtain ⟨hreads, hleft⟩ := hp.turn hturn
      exact (hreads.unmoved hacts).trans (ih hleft)

theorem Program.Completes.history_suffix (hrun : p.Completes (around.acts actor) s a s') :
    s.history <:+ s'.history := by
  induction hrun with
  | ends hends => exact List.suffix_refl _
  | turn hturn hacts _ ih =>
      rw [Surroundings.acts_history hacts] at ih
      exact (List.suffix_cons _ _).trans ih

namespace Tables

variable {t : Tables} {row : SendRecord}

/-- The tables with the record of another direct send, for which an identifier is given out. -/
def withSend (t : Tables) (row : SendRecord) : Tables :=
  { t with sends := t.sends ++ [row], issued := t.issued + 1 }

theorem withSend_ne (t : Tables) (row : SendRecord) : t.withSend row ≠ t := by
  intro h
  have hissued : t.issued + 1 = t.issued := congrArg Tables.issued h
  omega

/-- The record that was added last is completed, if no other one has its identifier. -/
theorem finishSend_withSend (hfresh : ∀ other ∈ t.sends, other.id ≠ row.id)
    (hpending : row.status = .known .pending) (status : SendStatus)
    (remoteId error : Option String) (now : Timestamp) :
    ((t.withSend row).finishSend row.id status remoteId error now).2 =
      t.withSend (finished status remoteId error now row) := by
  have hnone : t.sends.find? (fun other => other.id == row.id) = none :=
    List.find?_eq_none.2 fun other hother => by simpa using hfresh other hother
  have hfound : (t.withSend row).send? row.id = some row := by
    simp [send?, withSend, List.find?_append, hnone]
  have hothers : ∀ other ∈ t.sends, (other.id == row.id) = false :=
    fun other hother => by simpa using hfresh other hother
  rw [finishSend, hfound, Option.filter_some_pos (by simp [hpending])]
  simp [withSend, updateFirst_append hothers, updateFirst]

end Tables

namespace Router

variable {router : Router} {message : Message}

/-- What servers took when a delivery came to this result. -/
def taken (message : Message) : Except DispatchError Delivery → List (String × Message × String)
  | .ok delivery => [(delivery.server, message, delivery.remoteId)]
  | .error _ => []

theorem completes_attempt {server : String} {result : Except ClientError String}
    (hrun : (router.attempt server message).Completes (around.acts actor) s result s') :
    s'.tables = s.tables ∧
      s.Takes s' (match result with
        | .ok remoteId => [(server, message, remoteId)]
        | .error _ => []) := by
  unfold attempt at hrun
  split at hrun
  · have hacts := completes_request.1 hrun
    refine ⟨hacts.2.1.1, ?_⟩
    cases result <;> exact Scene.takes_of_acts hacts
  · obtain ⟨rfl, rfl⟩ := completes_pure.1 hrun
    exact ⟨rfl, (Scene.Unmoved.refl s').takes⟩

/-- Of the servers that are tried in turn, only the last one takes the message. -/
theorem completes_failOver {domain : String} {servers : List String} {attempts : Nat}
    {last : ClientError} {result : Except DispatchError Delivery}
    (hrun : (router.failOver domain message servers attempts last).Completes (around.acts actor) s
      result s') : s'.tables = s.tables ∧ s.Takes s' (taken message result) := by
  induction servers generalizing s attempts last with
  | nil =>
      obtain ⟨rfl, rfl⟩ := completes_pure.1 hrun
      exact ⟨rfl, (Scene.Unmoved.refl s').takes⟩
  | cons server rest ih =>
      obtain ⟨first, u, hattempt, hrest⟩ := Completes.of_bind hrun
      obtain ⟨htables, htakes⟩ := completes_attempt hattempt
      cases first with
      | ok remoteId =>
          obtain ⟨rfl, rfl⟩ := completes_pure.1 hrest
          exact ⟨htables, htakes⟩
      | error error =>
          obtain ⟨htables', htakes'⟩ := ih hrest
          refine ⟨htables'.trans htables, ?_⟩
          simpa using htakes.trans htakes'

theorem completes_deliver {route : Route} {result : Except DispatchError Delivery}
    (hrun : (router.deliver route message).run.Completes (around.acts actor) s result s') :
    s'.tables = s.tables ∧ s.Takes s' (taken message result) := by
  obtain ⟨first, u, hattempt, hrest⟩ := Completes.of_bind hrun
  obtain ⟨htables, htakes⟩ := completes_attempt hattempt
  cases first with
  | ok remoteId =>
      obtain ⟨rfl, rfl⟩ := completes_pure.1 hrest
      exact ⟨htables, htakes⟩
  | error error =>
      simp only at hrest
      split at hrest
      · obtain ⟨htables', htakes'⟩ := completes_failOver hrest
        refine ⟨htables'.trans htables, ?_⟩
        simpa using htakes.trans htakes'
      · obtain ⟨rfl, rfl⟩ := completes_pure.1 hrest
        exact ⟨htables, htakes⟩

theorem asks_primary (router : Router) (domain : String) (servers : List String)
    (preferred : Option String) :
    Asks Effect.Reads (router.primary domain servers preferred).run := by
  unfold primary
  split
  · exact asks_pure _
  · exact asks_bind (asks_request trivial) fun _ => asks_pure _

theorem asks_route (router : Router) (sender : String) (preferred : Option String) :
    Asks Effect.Reads (router.route sender preferred).run := by
  apply asks_bind (asks_liftExcept _)
  intro domain
  apply asks_bind (asks_store fun _ _ => rfl)
  intro reply
  apply asks_bind (asks_found _ reply)
  intro config
  dsimp only
  split
  · exact asks_bind (asks_throw _) fun _ => asks_bind (asks_primary _ _ _ _) fun _ => asks_pure _
  · exact asks_bind (asks_primary _ _ _ _) fun _ => asks_pure _

theorem senderDomain?_of_senderDomain {sender domain : String}
    (h : senderDomain sender = .ok domain) : Address.senderDomain? sender = some domain := by
  unfold senderDomain at h
  split at h
  · cases h
  · split at h
    · rename_i found hfound
      obtain rfl := Except.ok.inj h
      exact hfound
    · cases h

/-- A route is for the domain of the sender. -/
theorem domain_of_completes_route {sender : String} {preferred : Option String} {route : Route}
    (hrun : (router.route sender preferred).run.Completes (around.acts actor) s (.ok route) s') :
    Address.senderDomain? sender = some route.domain := by
  rcases completes_of_bind hrun with ⟨domain, u, hdomain, hrun⟩ | ⟨e, -, herror⟩
  · have hsender := senderDomain?_of_senderDomain (completes_liftExcept.1 hdomain).1.symm
    rcases completes_of_bind hrun with ⟨reply, v, -, hrun⟩ | ⟨e, -, herror⟩
    · rcases completes_of_bind hrun with ⟨config, w, -, hrun⟩ | ⟨e, -, herror⟩
      · dsimp only at hrun
        split at hrun
        · rcases completes_of_bind hrun with ⟨_, _, hthrow, -⟩ | ⟨e, -, herror⟩
          · cases (completes_pure.1 hthrow).1
          · cases herror
        · rcases completes_of_bind hrun with ⟨primary, _, -, hrun⟩ | ⟨e, -, herror⟩
          · obtain rfl := Except.ok.inj (completes_pure.1 hrun).1
            exact hsender
          · cases herror
      · cases herror
    · cases herror
  · cases herror

end Router

/-- What a record says of its message. -/
def SendRecord.Says (row : SendRecord) (status : SendStatus) (remoteId error : Option String) :
    Prop :=
  row.status = .known status ∧ row.remoteId = remoteId ∧ row.lastError = error

namespace SendRequest

/-- Which way a direct send came to its end: before there was a record of it, with a message that a
server took, or with one that none took. -/
inductive Ending where
  | refused
  | delivered
  | failed
deriving DecidableEq

/-- Carrying out a request, by itself, comes to a result, whatever goes wrong. -/
abbrev ComesTo (r : SendRequest) (router : Router) (key : Option ApiKey) (actor : Actor)
    (s : Scene) (result : Except DispatchError SendReceipt) (s' : Scene) : Prop :=
  (r.sendNow router key).run.Completes (Surroundings.harsh.acts actor) s result s'

/-- Why there is no record of a direct send: a check fails, the content or the route is not to be
had, or the record cannot be made. -/
inductive Refusal (r : SendRequest) (router : Router) (key : Option ApiKey) (actor : Actor)
    (s s' : Scene) (e : DispatchError) : Prop where
  | unchecked (hchecked : r.checked key = .error e)
  | unresolved {source : ContentSource} {ctx : RenderContext}
      (hchecked : r.checked key = .ok (source, ctx))
      (hcontent : (Content.resolve source ctx).run.Completes (Surroundings.harsh.acts actor) s
        (.error e) s')
  | unrouted {u : Scene} (hu : s.Unmoved u)
      (hroute : (router.route r.sender r.server).run.Completes (Surroundings.harsh.acts actor) u
        (.error e) s')
  | unrecorded {v : Scene} {new : NewSend} {failure : Failure} (hv : s.Unmoved v)
      (hcreate : Surroundings.harsh.acts actor (.store (.createSend new)) (.error failure) v s')
      (herror : e = .storage failure)

/-- The record of a request: its domain is the sender's, from which the key may send, and its server
is the one that the route asks first. -/
structure Recorded (r : SendRequest) (router : Router) (key : Option ApiKey) (actor : Actor)
    (s s' : Scene) (route : Route) (row : SendRecord) : Prop where
  id : row.id = .issued s.tables.issued
  keyId : row.keyId = key.map ApiKey.id
  sender : row.sender = r.sender
  recipient : row.recipient = r.recipient
  domain : Address.senderDomain? r.sender = some row.domain
  allowed : ∀ k, key = some k → k.allowsDomain row.domain = true
  server : row.server = route.primary
  routed : ∃ u v, s.Unmoved u ∧ v.history <:+ s'.history ∧
    (router.route r.sender r.server).run.Completes (Surroundings.harsh.acts actor) u (.ok route) v

/-- The message of a request is delivered along a route, with a result. -/
def Attempted (r : SendRequest) (router : Router) (actor : Actor) (s s' : Scene) (route : Route)
    (content : RenderedContent) (delivery : Except DispatchError Delivery) : Prop :=
  ∃ u v, s.history <:+ u.history ∧ v.history <:+ s'.history ∧
    (router.deliver route (r.message content)).run.Completes (Surroundings.harsh.acts actor) u
      delivery v

/-- The record is the only new row.  What is done last is to complete it: if that failed, the record
is still pending; and however it went, the caller would have been told the same. -/
structure Closed (r : SendRequest) (router : Router) (key : Option ApiKey) (actor : Actor)
    (s s' : Scene) (result : Except DispatchError SendReceipt) (row : SendRecord)
    (status : SendStatus) (remoteId error : Option String) : Prop where
  tables : s'.tables = s.tables.withSend row
  last : ∃ w answer,
    Surroundings.harsh.acts actor (.store (.finishSend row.id status remoteId error)) answer w s' ∧
      (answer.isOk = true → row.Says status remoteId error) ∧
      (answer.isOk = false → row.Says .pending none none) ∧
      ∀ answer' v,
        Surroundings.harsh.acts actor (.store (.finishSend row.id status remoteId error)) answer' w
            v →
          r.ComesTo router key actor s result v

/-- What an ending says: nothing was done, for a reason that the caller is told; or one server took
the message, once, and the caller is told which one; or none took it, and the caller is told what
the record says. -/
def EndsAs (r : SendRequest) (router : Router) (key : Option ApiKey) (actor : Actor) (s s' : Scene)
    (result : Except DispatchError SendReceipt) : Ending → Prop
  | .refused => ∃ e, result = .error e ∧ r.Refusal router key actor s s' e ∧ s.Unmoved s'
  | .delivered => ∃ row route content delivery,
      result = .ok ⟨row.id, .sent, delivery.server, some delivery.remoteId⟩ ∧
        s.Takes s' [(delivery.server, r.message content, delivery.remoteId)] ∧
        r.Recorded router key actor s s' route row ∧
        r.Attempted router actor s s' route content (.ok delivery) ∧
        r.Closed router key actor s s' result row .sent (some delivery.remoteId) none
  | .failed => ∃ row route content e, result = .error e ∧ s.Takes s' [] ∧
      r.Recorded router key actor s s' route row ∧
      r.Attempted router actor s s' route content (.error e) ∧
      r.Closed router key actor s s' result row .failed none (some e.message)

variable {r : SendRequest} {router : Router} {key : Option ApiKey} {route : Route}
  {row : SendRecord} {result : Except DispatchError SendReceipt}

theorem exists_of_bind_eq_ok {ε β γ : Type} {x : Except ε β} {f : β → Except ε γ} {c : γ}
    (h : x >>= f = .ok c) : ∃ b, x = .ok b ∧ f b = .ok c := by
  cases x with
  | ok b => exact ⟨b, rfl, h⟩
  | error e => cases h

/-- A request gets past its checks only if the key may send from the sender's domain. -/
theorem allowed_of_checked {source : ContentSource} {ctx : RenderContext}
    (h : r.checked key = .ok (source, ctx)) :
    ∃ domain, Address.senderDomain? r.sender = some domain ∧
      ∀ k, key = some k → k.allowsDomain domain = true := by
  obtain ⟨template, -, h⟩ := exists_of_bind_eq_ok h
  obtain ⟨recipient, -, h⟩ := exists_of_bind_eq_ok h
  obtain ⟨domain, hsender, h⟩ := exists_of_bind_eq_ok h
  obtain ⟨_, hkey, -⟩ := exists_of_bind_eq_ok h
  refine ⟨domain, ?_, ?_⟩
  · unfold senderDomain at hsender
    split at hsender
    · rename_i found hfound
      obtain rfl := Except.ok.inj hsender
      exact hfound
    · cases hsender
  · rintro k rfl
    by_contra hforbidden
    simp [checkKey, hforbidden] at hkey

theorem Recorded.later (h : r.Recorded router key actor s w route row)
    (hlater : w.history <:+ s'.history) : r.Recorded router key actor s s' route row := by
  obtain ⟨u, v, hu, hv, hroute⟩ := h.routed
  exact { h with routed := ⟨u, v, hu, hv.trans hlater, hroute⟩ }

/-- The record that a direct send begins with. -/
theorem recorded_of_acts {domain : String}
    (hdomain : Address.senderDomain? r.sender = some domain)
    (hallowed : ∀ k, key = some k → k.allowsDomain domain = true) (hu : s.Unmoved u)
    (hroute : (router.route r.sender r.server).run.Completes (Surroundings.harsh.acts actor) u
      (.ok route) v)
    (hcreate : Surroundings.harsh.acts actor
      (.store (.createSend
        ⟨key.map ApiKey.id, r.sender, r.recipient, route.domain, route.primary⟩)) (.ok row) v w) :
    r.Recorded router key actor s w route row ∧ row.Says .pending none none ∧
      w.tables = s.tables.withSend row ∧ s.Takes w [] := by
  have hv : s.Unmoved v := hu.trans ((router.asks_route _ _).unmoved hroute)
  obtain ⟨now, hreply, htables⟩ := Surroundings.acts_ok hcreate
  rw [hv.tables] at hreply htables
  subst hreply
  obtain rfl : domain = route.domain :=
    Option.some.inj (hdomain.symm.trans (Router.domain_of_completes_route hroute))
  have hlater : v.history <:+ w.history := by
    rw [Surroundings.acts_history hcreate]
    exact List.suffix_cons _ _
  exact ⟨⟨rfl, rfl, rfl, rfl, hdomain, hallowed, rfl, u, v, hu, hlater, hroute⟩,
    ⟨rfl, rfl, rfl⟩, htables, hv.takes.trans (Scene.takes_of_acts hcreate)⟩

/-- A direct send that does not come to its record does nothing, and one that does goes on with the
delivery. -/
theorem completes_sendNow (hrun : r.ComesTo router key actor s result s') :
    r.EndsAs router key actor s s' result .refused ∨
      ∃ content route row w, r.Recorded router key actor s w route row ∧
        row.Says .pending none none ∧ w.tables = s.tables.withSend row ∧ s.Takes w [] ∧
        (conclude router route (r.message content) row.id).run.Completes
          (Surroundings.harsh.acts actor) w result s' ∧
        ∀ result' s'',
          (conclude router route (r.message content) row.id).run.Completes
              (Surroundings.harsh.acts actor) w result' s'' →
            r.ComesTo router key actor s result' s'' := by
  -- every part may be the one that fails, and none of them writes before the record
  rcases completes_of_bind hrun with ⟨⟨source, ctx⟩, _, hchecked, hrun₁⟩ | ⟨e, hfailed, rfl⟩
  · obtain ⟨hpassed, rfl⟩ := completes_liftExcept.1 hchecked
    obtain ⟨domain, hdomain, hallowed⟩ := allowed_of_checked hpassed.symm
    have hresolves : Asks Effect.Reads (Content.resolve source ctx).run :=
      Engine.asks_resolve (fun _ _ _ => rfl) (fun _ _ _ => rfl) (fun _ _ => rfl) source ctx
    rcases completes_of_bind hrun₁ with ⟨content, u, hcontent, hrun₂⟩ | ⟨e, hfailed, rfl⟩
    · have hu := hresolves.unmoved hcontent
      have hroutes := router.asks_route r.sender r.server
      rcases completes_of_bind hrun₂ with ⟨route, v, hroute, hrun₃⟩ | ⟨e, hfailed, rfl⟩
      · rcases completes_of_bind hrun₃ with ⟨row, w, hrow, hrest⟩ | ⟨e, hfailed, rfl⟩
        · obtain ⟨answer, hcreate, hanswer⟩ := completes_store.1 hrow
          cases answer with
          | error failure => cases hanswer
          | ok reply =>
              obtain rfl := Except.ok.inj hanswer
              obtain ⟨hrecorded, hopen, hw, htakes⟩ :=
                recorded_of_acts hdomain hallowed hu hroute hcreate
              refine .inr ⟨content, route, row, w, hrecorded, hopen, hw, htakes, hrest, ?_⟩
              intro _ _ hagain
              exact completes_bind hchecked (completes_bind hcontent
                (completes_bind hroute (completes_bind hrow hagain)))
        · obtain ⟨answer, hcreate, hanswer⟩ := completes_store.1 hfailed
          cases answer with
          | error failure =>
              have hv := hu.trans (hroutes.unmoved hroute)
              exact .inl ⟨e, rfl, .unrecorded hv hcreate (Except.error.inj hanswer),
                hv.trans (.of_failure hcreate)⟩
          | ok reply => cases hanswer
      · exact .inl ⟨e, rfl, .unrouted hu hfailed, hu.trans (hroutes.unmoved hfailed)⟩
    · exact .inl ⟨e, rfl, .unresolved hpassed.symm hfailed, hresolves.unmoved hfailed⟩
  · obtain ⟨hchecked, rfl⟩ := completes_liftExcept.1 hfailed
    exact .inl ⟨e, rfl, .unchecked hchecked.symm, .refl _⟩

/-- A pending record that is the only new row is completed, or left pending if that fails. -/
theorem exists_closed (hfresh : ∀ other ∈ s.tables.sends, other.id ≠ .issued s.tables.issued)
    (hrow : r.Recorded router key actor s s' route row) (hopen : row.Says .pending none none)
    (hw : w.tables = s.tables.withSend row) {status : SendStatus} {remoteId error : Option String}
    {answer : Except Failure (Option SendRecord)}
    (hacts : Surroundings.harsh.acts actor
      (.store (.finishSend row.id status remoteId error)) answer w s')
    (hagain : ∀ answer' v,
      Surroundings.harsh.acts actor (.store (.finishSend row.id status remoteId error)) answer' w
          v →
        r.ComesTo router key actor s result v) :
    ∃ row', row'.id = row.id ∧ r.Recorded router key actor s s' route row' ∧
      r.Closed router key actor s s' result row' status remoteId error := by
  cases answer with
  | error failure =>
      have htables := (Surroundings.acts_error hacts).trans hw
      refine ⟨row, rfl, hrow, htables, w, _, hacts, ?_, fun _ => hopen, hagain⟩
      intro hok
      cases hok
  | ok reply =>
      obtain ⟨now, -, htables⟩ := Surroundings.acts_ok hacts
      have hothers : ∀ other ∈ s.tables.sends, other.id ≠ row.id := hrow.id ▸ hfresh
      have hfinished := Tables.finishSend_withSend hothers hopen.1 status remoteId error now
      rw [Tables.serve, hw, hfinished] at htables
      refine ⟨Tables.finished status remoteId error now row, rfl, { hrow with }, htables, w, _,
        hacts, fun _ => ⟨rfl, rfl, rfl⟩, ?_, hagain⟩
      intro hfailed
      cases hfailed

theorem completes_write {call : StoreCall} {told : Except DispatchError SendReceipt} :
    (Program.request (.store call) >>= fun _ => pure told).Completes (around.acts actor) s result
        s' ↔
      (∃ answer, around.acts actor (.store call) answer s s') ∧ result = told := by
  constructor
  · intro hrun
    obtain ⟨answer, u, hrequest, hrest⟩ := Completes.of_bind hrun
    obtain ⟨rfl, rfl⟩ := completes_pure.1 hrest
    exact ⟨⟨answer, completes_request.1 hrequest⟩, rfl⟩
  · rintro ⟨⟨answer, hacts⟩, rfl⟩
    exact (completes_request.2 hacts).bind (completes_pure.2 ⟨rfl, rfl⟩)

theorem exists_ending (hfresh : ∀ other ∈ s.tables.sends, other.id ≠ .issued s.tables.issued)
    (hrun : r.ComesTo router key actor s result s') :
    ∃ ending, r.EndsAs router key actor s s' result ending := by
  rcases completes_sendNow hrun with hrefused | ⟨content, route, row, w, hrecorded, hopen, hw,
    hbegun, hconclude, hresume⟩
  · exact ⟨.refused, hrefused⟩
  · have hrow := hrecorded.later hconclude.history_suffix
    obtain ⟨delivery, x, hdeliver, hwrite⟩ := Completes.of_bind hconclude
    obtain ⟨hx, htakes⟩ := Router.completes_deliver hdeliver
    have hattempted : r.Attempted router actor s s' route content delivery :=
      ⟨w, x, hbegun.history_suffix, Completes.history_suffix hwrite, hdeliver⟩
    cases delivery with
    | ok delivery =>
        obtain ⟨⟨answer, hacts⟩, rfl⟩ := completes_write.1 hwrite
        obtain ⟨row', hid, hrow', hclosed⟩ := exists_closed hfresh hrow hopen (hx.trans hw) hacts
          fun answer v hacts =>
            hresume _ _ (hdeliver.bind (completes_write.2 ⟨⟨answer, hacts⟩, rfl⟩))
        refine ⟨.delivered, row', route, content, delivery, by rw [hid], ?_, hrow', hattempted,
          hclosed⟩
        exact (hbegun.trans htakes).trans (Scene.takes_of_acts hacts)
    | error e =>
        obtain ⟨⟨answer, hacts⟩, rfl⟩ := completes_write.1 hwrite
        obtain ⟨row', -, hrow', hclosed⟩ := exists_closed hfresh hrow hopen (hx.trans hw) hacts
          fun answer v hacts =>
            hresume _ _ (hdeliver.bind (completes_write.2 ⟨⟨answer, hacts⟩, rfl⟩))
        refine ⟨.failed, row', route, content, e, rfl, ?_, hrow', hattempted, hclosed⟩
        exact (hbegun.trans htakes).trans (Scene.takes_of_acts hacts)

/-- The endings exclude each other: only a delivery has a receipt, and only a refusal leaves the
tables as they were. -/
theorem ending_unique {a b : Ending} (ha : r.EndsAs router key actor s s' result a)
    (hb : r.EndsAs router key actor s s' result b) : a = b := by
  have hadded : ∀ {row status remoteId error}, s.Unmoved s' →
      ¬ r.Closed router key actor s s' result row status remoteId error :=
    fun hsame hclosed => Tables.withSend_ne _ _ (hclosed.tables.symm.trans hsame.tables)
  cases a with
  | refused =>
      obtain ⟨e, rfl, -, hsame⟩ := ha
      cases b with
      | refused => rfl
      | delivered =>
          obtain ⟨_, _, _, _, hok, -⟩ := hb
          cases hok
      | failed =>
          obtain ⟨_, _, _, _, -, -, -, -, hclosed⟩ := hb
          exact absurd hclosed (hadded hsame)
  | delivered =>
      obtain ⟨_, _, _, _, rfl, -⟩ := ha
      cases b with
      | refused =>
          obtain ⟨e, herror, -⟩ := hb
          cases herror
      | delivered => rfl
      | failed =>
          obtain ⟨_, _, _, _, herror, -⟩ := hb
          cases herror
  | failed =>
      obtain ⟨_, _, _, _, rfl, -, -, -, hclosed⟩ := ha
      cases b with
      | refused =>
          obtain ⟨_, -, -, hsame⟩ := hb
          exact absurd hclosed (hadded hsame)
      | delivered =>
          obtain ⟨_, _, _, _, hok, -⟩ := hb
          cases hok
      | failed => rfl

/-- Whatever is in the store, whatever servers answer and whichever calls to the store fail: a
direct send comes to an end, in exactly one way. -/
theorem exists_unique_ending (r : SendRequest) (router : Router) (key : Option ApiKey)
    (actor : Actor) (s : Scene)
    (hfresh : ∀ other ∈ s.tables.sends, other.id ≠ .issued s.tables.issued) :
    (∀ c : Circumstances,
      r.ComesTo router key actor s ((r.sendNow router key).run.alone (c.respond actor) s).1
        ((r.sendNow router key).run.alone (c.respond actor) s).2) ∧
    ∀ result s', r.ComesTo router key actor s result s' →
      ∃! ending, r.EndsAs router key actor s s' result ending := by
  refine ⟨fun c => Circumstances.completes (fun _ _ => trivial) actor _ s, ?_⟩
  intro result s' hrun
  obtain ⟨ending, hending⟩ := exists_ending hfresh hrun
  exact ⟨ending, hending, fun other hother => ending_unique hother hending⟩

end SendRequest

namespace Rehearsal

def deployed : Tables where
  domains :=
    [⟨⟨4⟩, "here.example", .known .production, none, none, none, false, 0, 0, "", ⟨0, 0⟩, ⟨0, 0⟩⟩]
  deployments := [⟨⟨5⟩, ⟨4⟩, "north", .known .deployed, none, 0, none, none⟩]

def letter : SendRequest where
  sender := "news@here.example"
  recipient := "reader@there.example"
  replyTo := none
  subject := some "News"
  html := none
  text := some "Hello"
  templateId := none
  templateName := none
  values := .empty
  recipientName := none
  server := none
  headers := .empty

/-- The server takes every message, but records cannot be completed. -/
def halting : Circumstances where
  answer := answer "waiting"
  failure?
    | .finishSend _ _ _ _ => some (.database "down")
    | _ => none
  now := ⟨0, 0⟩

/-- What the letter comes to. -/
def posted : Except DispatchError SendReceipt × Scene :=
  (letter.sendNow ⟨engine.registry, {}⟩ none).run.alone (halting.respond .engine)
    ⟨deployed, [], []⟩

end Rehearsal

namespace SendRequest

/-- The caller is told about the message that a server took, though the record of it stays
pending. -/
theorem delivered_though_pending :
    (∀ other ∈ Rehearsal.deployed.sends, other.id ≠ .issued Rehearsal.deployed.issued) ∧
      ∃ row content s',
        Rehearsal.letter.ComesTo ⟨Rehearsal.engine.registry, {}⟩ none .engine
          ⟨Rehearsal.deployed, [], []⟩ (.ok ⟨row.id, .sent, "north", some "m-1"⟩) s' ∧
        Scene.Takes ⟨Rehearsal.deployed, [], []⟩ s'
          [("north", Rehearsal.letter.message content, "m-1")] ∧
        s'.tables = Rehearsal.deployed.withSend row ∧ row.Says .pending none none := by
  have hfresh : ∀ other ∈ Rehearsal.deployed.sends,
      other.id ≠ .issued Rehearsal.deployed.issued := by
    simp [Rehearsal.deployed]
  have htold : (Rehearsal.posted.1.toOption.map fun receipt =>
      (receipt.server, receipt.remoteId)) = some ("north", some "m-1") := by
    decide +kernel
  have hpending : Rehearsal.posted.2.tables.sends.map SendRecord.status =
      [.known .pending] := by
    decide +kernel
  obtain ⟨hcompletes, hends⟩ := exists_unique_ending Rehearsal.letter
    ⟨Rehearsal.engine.registry, {}⟩ none .engine ⟨Rehearsal.deployed, [], []⟩ hfresh
  have hrun := hcompletes Rehearsal.halting
  change ComesTo _ _ _ _ _ Rehearsal.posted.1 Rehearsal.posted.2 at hrun
  generalize Rehearsal.posted.1 = result, Rehearsal.posted.2 = s' at hrun htold hpending
  obtain ⟨ending, hending, -⟩ := hends result s' hrun
  cases ending with
  | refused =>
      obtain ⟨e, rfl, -⟩ := hending
      cases htold
  | failed =>
      obtain ⟨_, _, _, e, rfl, -⟩ := hending
      cases htold
  | delivered =>
      obtain ⟨row, route, content, ⟨server, remoteId, attempts⟩, rfl, htakes, -, -, htables, w,
        answer, -, hdone, hopen, -⟩ := hending
      obtain ⟨rfl, rfl⟩ : server = "north" ∧ remoteId = "m-1" := by
        simpa [Except.toOption] using htold
      have hstatus : row.status = .known .pending := by
        simpa [htables, Tables.withSend, Rehearsal.deployed] using hpending
      refine ⟨hfresh, row, content, s', hrun, htakes, htables, ?_⟩
      cases answer with
      | error failure => exact hopen rfl
      | ok reply =>
          have hsent := (hdone rfl).1
          rw [hstatus] at hsent
          cases hsent

end SendRequest

end Mailroom
