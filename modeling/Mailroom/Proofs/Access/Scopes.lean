import Mailroom.Api.Handle
import Mailroom.Proofs.Access.Keys

/-!
Requests without the right scope.  Every place below the versioned root looks for the scope of the key
before it asks for anything, whatever it reads out of the request first.  Main statement: unless the
key of a request is authenticated and has the scope of its place, the request is refused, and nothing
has changed but that a key may have been used.
-/

namespace Mailroom

open Program (Completes completes_pure)
open Service (completes_adapt completes_found_bind completes_of_bind completes_request_bind)

/-- What the interface works on: a scene, what was let in for each key, and whose turn it is among
the servers. -/
structure Premises where
  scene : Scene
  limiter : Limiter
  selection : Selection

/-- A call to the store that is waited for. -/
def Effect.IsStored : Effect → Prop
  | .store _ => True
  | _ => False

theorem Surroundings.failing_of_not_isStored {mayFail : StoreCall → Prop} {e : Effect}
    {answer : e.Answer} (he : ¬ e.IsStored) : failing mayFail e answer := by
  cases e with
  | store call => exact absurd trivial he
  | _ => trivial

namespace Premises

/-- The answer to a request, at an instant of the limiter's clock, and the counters after it.  Only
requests to be let in and choices of a server count; all others are answered elsewhere. -/
def tally (u : Premises) (clock : Nat) : (e : Effect) → e.Answer → e.Answer × Limiter × Selection
  | .allow key perMinute perHour, _ =>
      let (admitted, limiter) := u.limiter.allow key perMinute perHour clock
      (admitted, limiter, u.selection)
  | .remaining key perMinute perHour, _ =>
      (u.limiter.remaining key perMinute perHour clock, u.limiter, u.selection)
  | .choose strategy key servers, _ =>
      let (place, selection) := u.selection.select strategy key servers
      (place, u.limiter, selection)
  | _, answer => (answer, u.limiter, u.selection)

/-- What an actor's requests make of the premises, whatever may go wrong. -/
def acts (actor : Actor) : Acts Premises := fun e answer u v =>
  Surroundings.harsh.acts actor e answer u.scene v.scene ∧
    ∃ clock, (answer, v.limiter, v.selection) = u.tally clock e answer

/-- The answer to a request in some circumstances, and the premises after it. -/
def respond (c : Circumstances) (actor : Actor) (clock : Nat) (e : Effect) (u : Premises) :
    e.Answer × Premises :=
  let (elsewhere, tables, accepted) := c.reaction u.scene e
  let (answer, limiter, selection) := u.tally clock e elsewhere
  (answer,
    ⟨⟨tables, accepted, ⟨actor, e, answer, u.scene.tables, tables⟩ :: u.scene.history⟩, limiter,
      selection⟩)

/-- What an actor's requests make of the premises while the limiter's clock stands still. -/
def actsAt (around : Surroundings) (clock : Nat) (actor : Actor) : Acts Premises :=
  fun e answer u v => around.acts actor e answer u.scene v.scene ∧
    (answer, v.limiter, v.selection) = u.tally clock e answer

/-- Circumstances fit into surroundings that care for the answers of the store only. -/
theorem actsAt_respond {around : Surroundings} {c : Circumstances}
    (hothers : ∀ e answer, ¬ e.IsStored → around e answer)
    (hstore : ∀ s call, around (.store call) (c.reaction s (.store call)).1) (actor : Actor)
    (clock : Nat) (e : Effect) (u : Premises) :
    actsAt around clock actor e (respond c actor clock e u).1 u (respond c actor clock e u).2 := by
  have haround : ∀ s e, around e (c.reaction s e).1 := by
    intro s e
    cases e with
    | store call => exact hstore s call
    | _ => exact hothers _ _ id
  cases e with
  | allow key perMinute perHour => exact ⟨⟨hothers _ _ id, ⟨rfl, rfl⟩, rfl⟩, rfl⟩
  | remaining key perMinute perHour => exact ⟨⟨hothers _ _ id, ⟨rfl, rfl⟩, rfl⟩, rfl⟩
  | choose strategy key servers => exact ⟨⟨hothers _ _ id, ⟨rfl, rfl⟩, rfl⟩, rfl⟩
  | _ => exact ⟨c.acts_respond haround _ u.scene, rfl⟩

theorem acts_respond (c : Circumstances) (actor : Actor) (clock : Nat) (e : Effect) (u : Premises) :
    acts actor e (respond c actor clock e u).1 u (respond c actor clock e u).2 := by
  obtain ⟨hscene, htally⟩ :=
    actsAt_respond (fun _ _ _ => trivial) (fun _ _ => trivial) actor clock e u
  exact ⟨hscene, clock, htally⟩

/-- Every request comes to an answer. -/
theorem completes (c : Circumstances) (actor : Actor) (clock : Nat) {α : Type} (p : Program α)
    (u : Premises) :
    p.Completes (acts actor) u (p.alone (respond c actor clock) u).1
      (p.alone (respond c actor clock) u).2 :=
  p.completes_alone (acts_respond c actor clock) u

/-- So does every one while the store does not fail. -/
theorem completes_reliable {c : Circumstances} (hfailure : ∀ call, c.failure? call = none)
    (actor : Actor) (clock : Nat) {α : Type} (p : Program α) (u : Premises) :
    p.Completes (actsAt .reliable clock actor) u (p.alone (respond c actor clock) u).1
      (p.alone (respond c actor clock) u).2 := by
  have hothers : ∀ (e : Effect) (answer : e.Answer), ¬ e.IsStored →
      Surroundings.reliable e answer := fun _ _ he => Surroundings.failing_of_not_isStored he
  exact p.completes_alone (actsAt_respond hothers
    (fun s call => c.around_reliable hfailure s (.store call)) actor clock) u

/-- What is done on the premises is done in the scene. -/
theorem completes_scene {α : Type} {p : Program α} {actor : Actor} {a : α} {u v : Premises}
    (hrun : p.Completes (acts actor) u a v) :
    p.Completes (Surroundings.harsh.acts actor) u.scene a v.scene :=
  hrun.image scene fun _ _ _ _ hacts => hacts.1

end Premises

/-- A call to a server. -/
def Effect.Calls : Effect → Prop
  | .mta _ _ => True
  | _ => False

/-- From one time to another nothing changes but that a key may be marked as used, and no server is
called. -/
structure Premises.Untouched (used : Option Uuid) (u v : Premises) : Prop where
  tables : v.scene.tables = u.scene.tables ∨
    ∃ id now, used = some id ∧ v.scene.tables = u.scene.tables.touchKey id now
  accepted : v.scene.accepted = u.scene.accepted
  limiter : v.limiter = u.limiter
  selection : v.selection = u.selection
  calls : ∃ events, v.scene.history = events ++ u.scene.history ∧
    ∀ event ∈ events, ¬ event.effect.Calls

namespace Premises

variable {actor : Actor} {used : Option Uuid} {u v w : Premises}

theorem Untouched.refl (used : Option Uuid) (u : Premises) : u.Untouched used u :=
  ⟨.inl rfl, rfl, rfl, rfl, [], rfl, by simp⟩

/-- A key is marked last. -/
theorem Untouched.trans (h : u.Untouched none w) (h' : w.Untouched used v) : u.Untouched used v := by
  have hw : w.scene.tables = u.scene.tables := by
    rcases h.tables with hsame | ⟨id, now, hnone, -⟩
    · exact hsame
    · cases hnone
  obtain ⟨events, hevents, hquiet⟩ := h.calls
  obtain ⟨more, hmore, hquiet'⟩ := h'.calls
  refine ⟨hw ▸ h'.tables, h'.accepted.trans h.accepted, h'.limiter.trans h.limiter,
    h'.selection.trans h.selection, more ++ events, by rw [hmore, hevents, List.append_assoc], ?_⟩
  intro event hevent
  rcases List.mem_append.1 hevent with hevent | hevent
  · exact hquiet' event hevent
  · exact hquiet event hevent

/-- A request that is answered elsewhere, and calls no server, leaves all but the tables and the
engine's mind. -/
theorem untouched_of_acts {e : Effect} {answer : e.Answer} (hacts : acts actor e answer u v)
    (hquiet : ¬ e.Calls) (htally : ∀ clock, u.tally clock e answer = (answer, u.limiter, u.selection))
    (htables : v.scene.tables = u.scene.tables ∨
      ∃ id now, used = some id ∧ v.scene.tables = u.scene.tables.touchKey id now)
    (haccepted : v.scene.accepted = u.scene.accepted) : u.Untouched used v := by
  obtain ⟨hscene, clock, hcounted⟩ := hacts
  rw [htally] at hcounted
  have hcounters := (Prod.mk.inj hcounted).2
  refine ⟨htables, haccepted, (Prod.mk.inj hcounters).1, (Prod.mk.inj hcounters).2, [_],
    Surroundings.acts_history hscene, ?_⟩
  simpa using hquiet

theorem untouched_of_keysByLead {lead : String} {answer : Except Failure (List ApiKey)}
    (hacts : acts actor (.store (.keysByLead lead)) answer u v) : u.Untouched none v := by
  obtain ⟨-, ⟨hserved, haccepted⟩, -⟩ := hacts.1
  apply untouched_of_acts hacts id (fun _ => rfl) _ haccepted
  rcases hserved with ⟨now, -, htables⟩ | ⟨-, htables⟩
  · exact .inl htables
  · exact .inl htables

theorem untouched_of_now {now : Timestamp} (hacts : acts actor .now now u v) :
    u.Untouched none v := by
  obtain ⟨-, ⟨htables, haccepted⟩, -⟩ := hacts.1
  exact untouched_of_acts hacts id (fun _ => rfl) (.inl htables) haccepted

theorem untouched_of_touchKey {id : Uuid} {answer : Unit}
    (hacts : acts actor (.storeLater (.touchKey id)) answer u v) : u.Untouched (some id) v := by
  obtain ⟨-, ⟨hserved, haccepted⟩, -⟩ := hacts.1
  apply untouched_of_acts hacts (fun h => h) (fun _ => rfl) _ haccepted
  rcases hserved with ⟨now, htables⟩ | htables
  · exact .inr ⟨id, now, rfl, htables⟩
  · exact .inl htables

end Premises

/-- An answer puts the request at fault. -/
def ApiAnswer.IsRefusal (a : ApiAnswer) : Prop := 400 ≤ a.status ∧ a.status < 500

namespace ApiError

theorem isRefusal_noKey : noKey.answer.IsRefusal := by constructor <;> decide

theorem isRefusal_noSuchPlace : noSuchPlace.answer.IsRefusal := by constructor <;> decide

theorem isRefusal_noSuchMethod : noSuchMethod.answer.IsRefusal := by constructor <;> decide

theorem isRefusal_scopeMissing (scope : String) : (scopeMissing scope).answer.IsRefusal :=
  ⟨show 400 ≤ 403 by decide, show 403 < 500 by decide⟩

theorem isRefusal_unreadable (reason : Unreadable) : (unreadable reason).answer.IsRefusal := by
  cases reason <;> constructor <;> decide

end ApiError

namespace Interface

variable {actor : Actor} {i : Interface} {r : ApiRequest} {u v w : Premises}

/-- The look-up of keys failed from one time to another. -/
def LookUpFailed (u v : Premises) : Prop :=
  ∃ events, v.scene.history = events ++ u.scene.history ∧
    ∃ event ∈ events, ∃ (lead : String) (failure : Failure),
      (⟨event.effect, event.answer⟩ : (e : Effect) × e.Answer) =
        ⟨.store (.keysByLead lead), .error failure⟩

/-- The identifier of the key that a request turned out to come with. -/
def usedKey : Except ApiError ApiKey → Option Uuid
  | .ok key => some key.id
  | .error _ => none

/-- How a request may fail to come with a key. -/
inductive Stranger (u v : Premises) : ApiError → Prop where
  | unknown : Stranger u v .noKey
  | unavailable (hfailed : LookUpFailed u v) : Stranger u v .keysUnavailable

theorem completes_authenticate {secret : String} {result : Except Access.Denial ApiKey}
    (hrun : (Access.authenticate secret).run.Completes (Premises.acts actor) u result v) :
    (∃ key ∈ u.scene.tables.keys, result = .ok key ∧ u.Untouched (some key.id) v) ∨
      ((result = .error .unknown ∨ result = .error .unavailable ∧ LookUpFailed u v) ∧
        u.Untouched none v) := by
  unfold Access.authenticate at hrun
  rcases completes_found_bind.1 hrun with ⟨lead, -, hrun⟩ | ⟨-, rfl, rfl⟩
  · obtain ⟨answer, w, hlooked, hrun⟩ := completes_request_bind.1 hrun
    have huw := Premises.untouched_of_keysByLead hlooked
    cases answer with
    | error failure =>
        obtain ⟨rfl, rfl⟩ := completes_pure.1 hrun
        refine .inr ⟨.inr ⟨rfl, [_], Surroundings.acts_history hlooked.1, ?_⟩, huw⟩
        exact ⟨_, List.mem_singleton.2 rfl, lead, failure, rfl⟩
    | ok candidates =>
        obtain ⟨looked, hcandidates, -⟩ := Surroundings.acts_ok hlooked.1
        rcases completes_found_bind.1 hrun with ⟨key, hfound, hrun⟩ | ⟨-, rfl, rfl⟩
        · obtain ⟨now, x, hnow, hrun⟩ := completes_request_bind.1 hrun
          have hux := huw.trans (Premises.untouched_of_now hnow)
          dsimp only at hrun
          split at hrun
          · rcases completes_of_bind hrun with ⟨_, _, hthrow, -⟩ | ⟨e, hthrow, rfl⟩
            · cases (completes_pure.1 hthrow).1
            · obtain ⟨herror, rfl⟩ := completes_pure.1 hthrow
              obtain rfl := Except.error.inj herror
              exact .inr ⟨.inl rfl, hux⟩
          · obtain ⟨_, y, htouched, hrun⟩ := completes_request_bind.1 hrun
            obtain ⟨rfl, rfl⟩ := completes_pure.1 hrun
            have hstored : key ∈ u.scene.tables.keys := by
              have hcandidate := List.mem_of_find?_eq_some hfound
              rw [hcandidates] at hcandidate
              exact (List.mem_filter.1 (List.mem_of_mem_take hcandidate)).1
            exact .inl ⟨key, hstored, rfl, hux.trans (Premises.untouched_of_touchKey htouched)⟩
        · exact .inr ⟨.inl rfl, huw⟩
  · exact .inr ⟨.inl rfl, .refl _ _⟩

/-- To look for the key of a request, which is a stored one, changes nothing but that the key is marked
as used. -/
theorem completes_keyOf {outcome : Except ApiError ApiKey}
    (hrun : (keyOf r).run.Completes (Premises.acts actor) u outcome v) :
    u.Untouched (usedKey outcome) v ∧ (∀ key, outcome = .ok key → key ∈ u.scene.tables.keys) ∧
      ∀ e, outcome = .error e → Stranger u v e := by
  rcases completes_found_bind.1 hrun with ⟨secret, -, hrun⟩ | ⟨-, rfl, rfl⟩
  · obtain ⟨result, hinner, rfl⟩ := completes_adapt.1 hrun
    rcases completes_authenticate hinner with ⟨key, hstored, rfl, huv⟩ | ⟨rfl | ⟨rfl, hfailed⟩, huv⟩
    · refine ⟨huv, ?_, nofun⟩
      rintro _ ⟨⟩
      exact hstored
    · refine ⟨huv, nofun, ?_⟩
      rintro _ ⟨⟩
      exact .unknown
    · refine ⟨huv, nofun, ?_⟩
      rintro _ ⟨⟩
      exact .unavailable hfailed
  · refine ⟨.refl _ _, nofun, ?_⟩
    rintro _ ⟨⟩
    exact .unknown

/-- A part that makes no request and ends in an answer that puts the request at fault. -/
def Refuses {α : Type} (part : Service ApiError α) : Prop :=
  ∃ e : ApiError, e.answer.IsRefusal ∧ part = throw e

/-- A part that makes no request: it has its value at once, or refuses. -/
def Settles {α : Type} (part : Service ApiError α) : Prop := (∃ a, part = pure a) ∨ Refuses part

section

variable {α β : Type} {part : Service ApiError α} {f : α → Service ApiError β} {key : ApiKey}

theorem Refuses.bind (h : Refuses part) (f : α → Service ApiError β) : Refuses (part >>= f) := by
  obtain ⟨e, hrefuses, rfl⟩ := h
  exact ⟨e, hrefuses, rfl⟩

/-- What follows a part that makes no request may be what refuses. -/
theorem Settles.bind_refuses (h : Settles part) (hf : ∀ a, Refuses (f a)) :
    Refuses (part >>= f) := by
  rcases h with ⟨a, rfl⟩ | hrefuses
  · exact hf a
  · exact hrefuses.bind f

theorem Settles.bind (h : Settles part) (hf : ∀ a, Settles (f a)) : Settles (part >>= f) := by
  rcases h with ⟨a, rfl⟩ | hrefuses
  · exact hf a
  · exact .inr (hrefuses.bind f)

theorem settles_found {error : ApiError} (herror : error.answer.IsRefusal) (value : Option α) :
    Settles (Service.found error value) := by
  cases value with
  | some a => exact .inl ⟨a, rfl⟩
  | none => exact .inr ⟨error, herror, rfl⟩

theorem settles_reading (value : Except Unreadable α) : Settles (reading value) := by
  cases value with
  | ok a => exact .inl ⟨a, rfl⟩
  | error reason => exact .inr ⟨_, ApiError.isRefusal_unreadable reason, rfl⟩

theorem settles_segment (text : String) : Settles (segment text) :=
  settles_found (ApiError.isRefusal_unreadable .path) _

theorem settles_identifier (text : String) : Settles (identifier text) :=
  (settles_segment text).bind fun _ => settles_found (ApiError.isRefusal_unreadable .path) _

theorem checkScope_of_hasScope {scope : String} (hscope : key.hasScope scope = true) :
    checkScope key scope = pure () := by
  rw [checkScope, if_pos hscope]

theorem checkScope_of_not_hasScope {scope : String} (hscope : key.hasScope scope = false) :
    checkScope key scope = throw (.scopeMissing scope) := by
  rw [checkScope, if_neg (by simp [hscope])]

/-- Without its scope a key gets no further. -/
theorem refuses_checkScope {scope : String} (hscope : key.hasScope scope = false)
    (f : Unit → Service ApiError β) : Refuses (checkScope key scope >>= f) := by
  apply Refuses.bind
  exact ⟨_, ApiError.isRefusal_scopeMissing scope, checkScope_of_not_hasScope hscope⟩

end

end Interface

def Place.scope : Place → String
  | .send | .sendRecord _ => scopeSend
  | _ => scopeAdmin

namespace Interface

variable {actor : Actor} {i : Interface} {r : ApiRequest} {u v w : Premises} {key : ApiKey}
  {place : Place}

/-- No place does anything for a key that lacks its scope. -/
theorem refuses_handleKeyed (hscope : key.hasScope place.scope = false) (method : String) :
    Refuses (i.handleKeyed key r method place) := by
  cases place with
  | send => exact (settles_reading _).bind_refuses fun _ => refuses_checkScope hscope _
  | sendRecord id => exact (settles_identifier id).bind_refuses fun _ => refuses_checkScope hscope _
  | servers => exact refuses_checkScope hscope _
  | jobs =>
      change Refuses (if method = "GET" then _ else _)
      split
      · apply (settles_reading _).bind_refuses
        intro status
        apply (settles_reading _).bind_refuses
        intro limit
        apply (settles_reading _).bind_refuses
        intro offset
        exact refuses_checkScope hscope _
      · exact (settles_reading _).bind_refuses fun _ => refuses_checkScope hscope _
  | job id => exact (settles_identifier id).bind_refuses fun _ => refuses_checkScope hscope _
  | jobVerb id verb =>
      apply (settles_identifier id).bind_refuses
      intro id
      cases verb with
      | retry => exact (settles_reading _).bind_refuses fun _ => refuses_checkScope hscope _
      | _ => exact refuses_checkScope hscope _
  | domain name =>
      apply (settles_segment name).bind_refuses
      intro name
      split
      · exact refuses_checkScope hscope _
      · exact (settles_reading _).bind_refuses fun _ => refuses_checkScope hscope _
  | deployment name server =>
      apply (settles_segment name).bind_refuses
      intro name
      apply (settles_segment server).bind_refuses
      intro server
      split
      · exact refuses_checkScope hscope _
      · exact refuses_checkScope hscope _
  | _ => exact ⟨.noSuchPlace, ApiError.isRefusal_noSuchPlace, rfl⟩

/-- What follows once it is known who is at the door. -/
def proceed (i : Interface) (r : ApiRequest) (place : Place) (key : ApiKey) : Handling := do
  let method ← Service.found .noSuchMethod (place.method? r.method)
  i.handleKeyed key r method place

theorem handle_eq (hplace : Place.ofPath? r.path = some place) (hversioned : place.isOpen = false) :
    i.handle r = keyOf r >>= i.proceed r place := by
  rw [handle, hplace]
  change (if place.isOpen then _ else _) = _
  rw [hversioned]
  rfl

theorem refuses_proceed (hscope : key.hasScope place.scope = false) :
    Refuses (i.proceed r place key) :=
  (settles_found ApiError.isRefusal_noSuchMethod _).bind_refuses fun method =>
    refuses_handleKeyed hscope method

/-- The answer to how a request was handled. -/
def answerTo : Except ApiError ApiAnswer → ApiAnswer
  | .ok answer => answer
  | .error e => e.answer

/-- A request for the head only is answered with the status of one to get. -/
theorem completes_respond {answer : ApiAnswer}
    (hrun : (i.respond r).Completes (Premises.acts actor) u answer v) :
    ∃ result, (i.handle r).run.Completes (Premises.acts actor) u result v ∧
      answer.status = (answerTo result).status := by
  obtain ⟨result, w, hhandle, hrest⟩ := Completes.of_bind hrun
  have hend : answer =
      (if r.method = "HEAD" then { answerTo result with body := none } else answerTo result) ∧
        v = w := by
    cases result with
    | ok full => exact completes_pure.1 hrest
    | error e => exact completes_pure.1 hrest
  obtain ⟨rfl, rfl⟩ := hend
  refine ⟨result, hhandle, ?_⟩
  split
  · rfl
  · rfl

/-- A part that refuses does nothing else. -/
theorem Refuses.completes {part : Handling} (h : Refuses part) {result : Except ApiError ApiAnswer}
    (hrun : part.run.Completes (Premises.acts actor) u result v) :
    (answerTo result).IsRefusal ∧ v = u := by
  obtain ⟨e, hrefuses, rfl⟩ := h
  obtain ⟨rfl, rfl⟩ := completes_pure.1 hrun
  exact ⟨hrefuses, rfl⟩

/-- A request to a place below the versioned root comes to an answer, and it begins with looking for
its key among those that are stored.  Unless this yields a key that has the scope of the place, the
answer puts the request at fault, or says that keys could not be looked up where the look-up failed;
and nothing has changed but that the key that was found may be marked as used.  Only a key whose
stored scopes are a list of texts has any scope. -/
theorem untouched_without_scope (i : Interface) (r : ApiRequest) (actor : Actor)
    (hplace : Place.ofPath? r.path = some place) (hversioned : place.isOpen = false)
    (u : Premises) :
    (∀ (c : Circumstances) (clock : Nat), (i.respond r).Completes (Premises.acts actor) u
      ((i.respond r).alone (Premises.respond c actor clock) u).1
      ((i.respond r).alone (Premises.respond c actor clock) u).2) ∧
    (∀ answer v, (i.respond r).Completes (Premises.acts actor) u answer v →
      ∃ outcome w, (keyOf r).run.Completes (Premises.acts actor) u outcome w ∧
        w.scene.history <:+ v.scene.history ∧
        (∀ key, outcome = .ok key → key ∈ u.scene.tables.keys) ∧
        ((∀ key, outcome = .ok key → key.hasScope place.scope = false) →
          (answer.IsRefusal ∨ answer.status = 500 ∧ LookUpFailed u v) ∧
            u.Untouched (usedKey outcome) v)) ∧
    ∀ (key : ApiKey) (scope : String), key.hasScope scope = true →
      ∃ names, key.scopes = .ofStrings names := by
  refine ⟨fun c clock => Premises.completes c actor clock _ u, ?_, ?_⟩
  · intro answer v hrun
    obtain ⟨result, hhandle, hstatus⟩ := completes_respond hrun
    have hrefusal : answer.IsRefusal ↔ (answerTo result).IsRefusal := by
      rw [ApiAnswer.IsRefusal, hstatus, ApiAnswer.IsRefusal]
    rw [handle_eq hplace hversioned] at hhandle
    obtain ⟨outcome, w, hkey, hrest⟩ := Completes.of_bind hhandle
    obtain ⟨huntouched, hstored, hstranger⟩ := completes_keyOf hkey
    have hlater := (Premises.completes_scene hrest).history_suffix
    refine ⟨outcome, w, hkey, hlater, hstored, fun hlacking => ?_⟩
    cases outcome with
    | ok key =>
        obtain ⟨hrefused, rfl⟩ := (refuses_proceed (hlacking key rfl)).completes hrest
        exact ⟨.inl (hrefusal.2 hrefused), huntouched⟩
    | error e =>
        obtain ⟨rfl, rfl⟩ := completes_pure.1 hrest
        refine ⟨?_, huntouched⟩
        cases hstranger e rfl with
        | unknown => exact .inl (hrefusal.2 ApiError.isRefusal_noKey)
        | unavailable hfailed => exact .inr ⟨hstatus, hfailed⟩
  · intro key scope hscope
    obtain ⟨names, hnames, -⟩ := ApiKey.hasScope_iff.1 hscope
    exact ⟨names, hnames⟩

end Interface

namespace Rehearsal

def interface : Interface := ⟨⟨engine.registry, {}⟩, .roundRobin, false⟩

/-- A request to list the jobs, with these headers. -/
def inquiry (headers : List (String × String)) : ApiRequest := ⟨"GET", "/api/v1/jobs", headers, ""⟩

/-- Nobody has a key. -/
def premises : Premises := ⟨⟨tables, [], []⟩, .empty, .initial⟩

/-- Keys cannot be looked up. -/
def keyless : Circumstances where
  answer := answer "waiting"
  failure?
    | .keysByLead _ => some (.database "down")
    | _ => none
  now := ⟨0, 0⟩

end Rehearsal

namespace Interface

open Rehearsal (fair inquiry interface keyless premises)

/-- A request without a key is refused and changes nothing. -/
theorem untouched_without_key :
    Place.ofPath? (inquiry []).path = some .jobs ∧ Place.jobs.isOpen = false ∧
      ∃ answer v, (interface.respond (inquiry [])).Completes (Premises.acts .engine) premises answer v ∧
        answer.IsRefusal ∧ premises.Untouched none v := by
  have hplace : Place.ofPath? (inquiry []).path = some .jobs := by decide +kernel
  obtain ⟨hends, hruns, -⟩ :=
    untouched_without_scope interface (inquiry []) .engine hplace rfl premises
  have hrun := hends (fair "waiting") 0
  obtain ⟨outcome, w, hkey, -, hstored, huntouched⟩ := hruns _ _ hrun
  have hnobody : ∀ key, outcome ≠ .ok key := fun key hok => List.not_mem_nil (hstored key hok)
  obtain ⟨hstatus, hsame⟩ := huntouched fun key hok => absurd hok (hnobody key)
  have hused : usedKey outcome = none := by
    cases outcome with
    | ok key => exact absurd rfl (hnobody key)
    | error e => rfl
  refine ⟨hplace, rfl, _, _, hrun, hstatus.resolve_right ?_, hused ▸ hsame⟩
  rintro ⟨hunavailable, -⟩
  exact absurd hunavailable (by decide +kernel)

/-- It is not so that a request whose key is not authenticated is always put at fault: the store may
fail to look it up. -/
theorem may_answer_unavailable :
    ¬ ∀ (i : Interface) (r : ApiRequest) (actor : Actor) (place : Place) (u v : Premises)
        (answer : ApiAnswer),
      Place.ofPath? r.path = some place → place.isOpen = false →
        (i.respond r).Completes (Premises.acts actor) u answer v →
        (∀ outcome w, (keyOf r).run.Completes (Premises.acts actor) u outcome w →
          ∀ key, outcome = .ok key → key.hasScope place.scope = false) →
        answer.IsRefusal := by
  intro hclaim
  have hrun := Premises.completes keyless .engine 0
    (interface.respond (inquiry [("x-api-key", "rm_shop_winter")])) premises
  have hrefusal := hclaim _ _ _ .jobs _ _ _ (by decide +kernel) rfl hrun fun outcome w hkey key hok =>
    absurd ((completes_keyOf hkey).2.1 key hok) List.not_mem_nil
  exact absurd hrefusal.2 (by decide +kernel)

end Interface

end Mailroom
