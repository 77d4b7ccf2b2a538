import Mailroom.Proofs.Access.Entry
import Mailroom.Proofs.Access.Scopes

/-!
What a key learns about the sends of others.  Tables that hold the same keys, and the same sends of
one key, may differ in all other sends; whoever asks with that key is not to notice.  Main statement:
without the scope to administrate, a key gets the same answers to requests for a send from both.
-/

namespace Mailroom

namespace Program

variable {W α β : Type} {acts : Acts W} {same : W → W → Prop} {kind : Effect → Prop}
  {p : Program α} {u u' : W}

/-- What a program comes to, it comes to from a like state as well, if each of its requests is
answered alike and leaves like states. -/
theorem Completes.matched {a : α} {v : W}
    (hstep : ∀ e answer u v u', kind e → acts e answer u v → same u u' →
      ∃ v', acts e answer u' v' ∧ same v v')
    (hrun : p.Completes acts u a v) (hp : p.Asks kind) (hsame : same u u') :
    ∃ v', p.Completes acts u' a v' ∧ same v v' := by
  induction hrun generalizing u' with
  | ends hends => exact ⟨u', .ends hends, hsame⟩
  | turn hturn hacts _ ih =>
      obtain ⟨hkind, hleft⟩ := hp.turn hturn
      obtain ⟨w', hacts', hsame'⟩ := hstep _ _ _ _ _ hkind hacts hsame
      obtain ⟨v', hrest, hend⟩ := ih hleft hsame'
      exact ⟨v', .turn hturn hacts' hrest, hend⟩

variable {respond : (e : Effect) → W → e.Answer × W}

theorem alone_bind (p : Program α) (f : α → Program β) (u : W) :
    (p >>= f).alone respond u = (f (p.alone respond u).1).alone respond (p.alone respond u).2 := by
  change (p.andThen f).alone respond u = _
  induction p generalizing u with
  | done a => rfl
  | ask e next ih => exact ih _ _ _
  | fork admission count tasks next _ ih => exact ih _ _ _

theorem inTurn_matched {count : Nat} {run : Fin count → W → β × W}
    (hrun : ∀ i u u', same u u' → (run i u).1 = (run i u').1 ∧ same (run i u).2 (run i u').2)
    (hsame : same u u') :
    (inTurn count run u).1 = (inTurn count run u').1 ∧
      same (inTurn count run u).2 (inTurn count run u').2 := by
  induction count generalizing u u' with
  | zero => exact ⟨rfl, hsame⟩
  | succ count ih =>
      obtain ⟨hfirst, hnext⟩ := hrun 0 u u' hsame
      obtain ⟨hrest, hend⟩ := ih (fun i => hrun i.succ) hnext
      refine ⟨?_, hend⟩
      rw [inTurn, inTurn, hfirst, hrest]

/-- A program that is run by itself comes to the same from like states. -/
theorem alone_matched
    (hstep : ∀ e u u', kind e → same u u' →
      (respond e u).1 = (respond e u').1 ∧ same (respond e u).2 (respond e u').2)
    (hp : p.Asks kind) (hsame : same u u') :
    (p.alone respond u).1 = (p.alone respond u').1 ∧
      same (p.alone respond u).2 (p.alone respond u').2 := by
  induction p generalizing u u' with
  | done a => exact ⟨rfl, hsame⟩
  | ask e next ih =>
      obtain ⟨hanswer, hnext⟩ := hstep e u u' hp.1 hsame
      simp only [alone]
      rw [hanswer]
      exact ih _ (hp.2 _) hnext
  | fork admission count tasks next ihtasks ihnext =>
      obtain ⟨hresults, hnext⟩ := inTurn_matched (fun i _ _ => ihtasks i (hp.1 i)) hsame
      simp only [alone]
      rw [hresults]
      exact ihnext _ (hp.2 _) hnext

end Program

open Program (Completes alone_bind completes_pure completes_request)

theorem Tables.send?_eq_some_iff {t : Tables} (hids : (t.sends.map SendRecord.id).Nodup) {id : Uuid}
    {s : SendRecord} : t.send? id = some s ↔ s ∈ t.sends ∧ s.id = id := by
  constructor
  · intro h
    exact ⟨List.mem_of_find?_eq_some h, by simpa using List.find?_some h⟩
  · rintro ⟨hs, rfl⟩
    exact find?_key hids hs

/-- Two tables have the same keys, and the same sends of one of them. -/
structure Tables.AgreeFor (key : ApiKey) (t t' : Tables) : Prop where
  keys : t.keys = t'.keys
  own : ∀ id s, s.keyId = some key.id → (t.send? id = some s ↔ t'.send? id = some s)

namespace Tables.AgreeFor

variable {key : ApiKey} {t t' : Tables}

theorem symm (h : AgreeFor key t t') : AgreeFor key t' t :=
  ⟨h.keys.symm, fun id s hs => (h.own id s hs).symm⟩

/-- Where no identifier is given out twice, the sends of the key are the rows with its name. -/
theorem of_mem (hkeys : t.keys = t'.keys) (hids : (t.sends.map SendRecord.id).Nodup)
    (hids' : (t'.sends.map SendRecord.id).Nodup)
    (hown : ∀ s, s.keyId = some key.id → (s ∈ t.sends ↔ s ∈ t'.sends)) : AgreeFor key t t' where
  keys := hkeys
  own id s hs := by
    rw [Tables.send?_eq_some_iff hids, Tables.send?_eq_some_iff hids', hown s hs]

/-- A key that may see none but its own sends sees the same ones in both. -/
theorem seen_eq (h : AgreeFor key t t') (hadmin : key.hasScope scopeAdmin = false) (id : Uuid) :
    (t.send? id).filter (Interface.maySee key) = (t'.send? id).filter (Interface.maySee key) := by
  have hown : ∀ s, Interface.maySee key s = true ↔ s.keyId = some key.id := by
    intro s
    rw [Interface.maySee, hadmin, Bool.or_false, beq_iff_eq]
  ext s
  simp only [Option.filter_eq_some_iff, hown]
  constructor
  · exact fun ⟨hs, hkey⟩ => ⟨(h.own id s hkey).1 hs, hkey⟩
  · exact fun ⟨hs, hkey⟩ => ⟨(h.own id s hkey).2 hs, hkey⟩

theorem touchKey (h : AgreeFor key t t') (id : Uuid) (now : Timestamp) :
    AgreeFor key (t.touchKey id now) (t'.touchKey id now) where
  keys := by
    rw [Tables.touchKey, Tables.touchKey, h.keys]
  own := h.own

end Tables.AgreeFor

/-- What is asked to find out who makes a request. -/
def Effect.Identifies : Effect → Prop
  | .store (.keysByLead _) | .storeLater (.touchKey _) | .now => True
  | _ => False

namespace Interface

theorem asks_authenticate (secret : String) :
    (Access.authenticate secret).run.Asks Effect.Identifies := by
  apply Service.asks_bind (Service.asks_found _ _)
  intro lead
  apply Service.asks_bind (Service.asks_request trivial)
  intro answer
  cases answer with
  | error failure => exact Service.asks_throw _
  | ok candidates =>
      apply Service.asks_bind (Service.asks_found _ _)
      intro key
      apply Service.asks_bind (Service.asks_request trivial)
      intro now
      split
      · trivial
      · exact Service.asks_bind (Service.asks_request trivial) fun _ => trivial

theorem asks_keyOf (r : ApiRequest) : (keyOf r).run.Asks Effect.Identifies := by
  apply Service.asks_bind (Service.asks_found _ _)
  intro secret
  exact Program.Asks.bind (asks_authenticate secret) fun _ => trivial

end Interface

/-- Whoever makes a request is found alike in two scenes whose tables a key cannot tell apart. -/
theorem Scene.Reaction.matched {key : ApiKey} {s s' : Scene} {e : Effect} {answer : e.Answer}
    {t : Tables} {accepted : List (Uuid × String)} (hreaction : s.Reaction e answer t accepted)
    (he : e.Identifies) (hagree : s.tables.AgreeFor key s'.tables) :
    ∃ t', s'.Reaction e answer t' s'.accepted ∧ t.AgreeFor key t' := by
  cases e with
  | store call =>
      cases call with
      | keysByLead lead =>
          refine ⟨s'.tables, ⟨?_, rfl⟩, ?_⟩
          · rcases hreaction.1 with ⟨now, hanswer, -⟩ | ⟨hfailed, -⟩
            · refine .inl ⟨now, ?_, rfl⟩
              change answer = .ok (s'.tables.keysByLead lead now)
              rw [hanswer, Tables.keysByLead, ← hagree.keys]
              rfl
            · exact .inr ⟨hfailed, rfl⟩
          · rcases hreaction.1 with ⟨now, -, htables⟩ | ⟨-, htables⟩
            · exact htables ▸ hagree
            · exact htables ▸ hagree
      | _ => cases he
  | storeLater call =>
      cases call with
      | touchKey id =>
          rcases hreaction.1 with ⟨now, rfl⟩ | rfl
          · exact ⟨s'.tables.touchKey id now, ⟨.inl ⟨now, rfl⟩, rfl⟩, hagree.touchKey id now⟩
          · exact ⟨s'.tables, ⟨.inr rfl, rfl⟩, hagree⟩
      | _ => cases he
  | now => exact ⟨s'.tables, ⟨rfl, rfl⟩, hreaction.1 ▸ hagree⟩
  | _ => cases he

namespace Premises

variable {actor : Actor} {key : ApiKey} {u v u' : Premises}

/-- On two premises there are tables that a key cannot tell apart. -/
def AgreeFor (key : ApiKey) (u u' : Premises) : Prop :=
  u.scene.tables.AgreeFor key u'.scene.tables

/-- Premises change as their tables may, where a request does not count. -/
theorem exists_acts (u : Premises) (actor : Actor) (e : Effect) (answer : e.Answer) {t : Tables}
    (htally : u.tally 0 e answer = (answer, u.limiter, u.selection))
    (hreaction : u.scene.Reaction e answer t u.scene.accepted) :
    ∃ v, acts actor e answer u v ∧ v.scene.tables = t :=
  ⟨⟨⟨t, u.scene.accepted, ⟨actor, e, answer, u.scene.tables, t⟩ :: u.scene.history⟩,
    u.limiter, u.selection⟩, ⟨⟨trivial, hreaction, rfl⟩, 0, htally.symm⟩, rfl⟩

theorem acts_matched {e : Effect} {answer : e.Answer} (he : e.Identifies)
    (hacts : acts actor e answer u v) (hagree : AgreeFor key u u') :
    ∃ v', acts actor e answer u' v' ∧ AgreeFor key v v' := by
  obtain ⟨t', hreaction, ht⟩ := hacts.1.2.1.matched he hagree
  have htally : u'.tally 0 e answer = (answer, u'.limiter, u'.selection) := by
    cases e with
    | store _ | storeLater _ | now => rfl
    | _ => cases he
  obtain ⟨v', hacts', rfl⟩ := u'.exists_acts actor e answer htally hreaction
  exact ⟨v', hacts', ht⟩

theorem respond_matched (c : Circumstances) (clock : Nat) {e : Effect} (he : e.Identifies)
    (hagree : AgreeFor key u u') :
    (respond c actor clock e u).1 = (respond c actor clock e u').1 ∧
      AgreeFor key (respond c actor clock e u).2 (respond c actor clock e u').2 := by
  cases e with
  | store call =>
      cases call with
      | keysByLead lead =>
          have hreply : u.scene.tables.serve c.now (.keysByLead lead) =
              (u'.scene.tables.keysByLead lead c.now, u.scene.tables) := by
            rw [Tables.keysByLead, ← hagree.keys]
            rfl
          simp only [respond, Circumstances.reaction]
          split
          · exact ⟨rfl, hagree⟩
          · rw [hreply]
            exact ⟨rfl, hagree⟩
      | _ => cases he
  | storeLater call =>
      cases call with
      | touchKey id => exact ⟨rfl, hagree.touchKey id c.now⟩
      | _ => cases he
  | now => exact ⟨rfl, hagree⟩
  | _ => cases he

end Premises

namespace Interface

variable {i : Interface} {r : ApiRequest} {key : ApiKey} {actor : Actor} {u u' : Premises}

/-- What comes of a look at a send, with the answer of the store. -/
def shown (key : ApiKey) : Except Failure (Option SendRecord) → Except ApiError ApiAnswer
  | .error failure => .error (.dispatch (.storage failure))
  | .ok record =>
      match record.filter (maySee key) with
      | some s => .ok (.ok (ApiAnswer.sendJson s))
      | none => .error (.notFound "Send not found")

theorem run_showSend (id : Uuid) (hscope : key.hasScope scopeSend = true) :
    (showSend key id).run =
      Program.request (.store (.send id)) >>= fun answer => pure (shown key answer) := by
  rw [showSend, checkScope_of_hasScope hscope]
  refine congrArg (Program.ask (.store (.send id))) (funext fun answer => ?_)
  cases answer with
  | error failure => rfl
  | ok record =>
      change (match record.filter (maySee key) with
        | some s => return .ok (ApiAnswer.sendJson s)
        | none => throw (.notFound "Send not found") : Handling).run =
          Program.done (shown key (.ok record))
      rw [shown]
      cases record.filter (maySee key) <;> rfl

/-- At the place of a send nothing is asked, or one look at the sends is all. -/
theorem run_proceed_sendRecord (i : Interface) (r : ApiRequest) (text : String) (key : ApiKey) :
    (∃ result, (i.proceed r (.sendRecord text) key).run = pure result) ∨
      ∃ id, (i.proceed r (.sendRecord text) key).run =
        Program.request (.store (.send id)) >>= fun answer => pure (shown key answer) := by
  have hsettled : Settles (do
      let _ ← Service.found .noSuchMethod (Place.method? (.sendRecord text) r.method)
      identifier text) :=
    (settles_found ApiError.isRefusal_noSuchMethod _).bind fun _ => settles_identifier text
  have hsplit : i.proceed r (.sendRecord text) key = (do
      let _ ← Service.found .noSuchMethod (Place.method? (.sendRecord text) r.method)
      identifier text) >>= showSend key := by
    rw [bind_assoc]
    rfl
  rw [hsplit]
  rcases hsettled with ⟨id, hid⟩ | hrefuses
  · rw [hid, pure_bind]
    cases hscope : key.hasScope scopeSend with
    | true => exact .inr ⟨id, run_showSend id hscope⟩
    | false =>
        obtain ⟨e, -, he⟩ := refuses_checkScope hscope fun _ => _
        exact .inl ⟨_, congrArg ExceptT.run he⟩
  · obtain ⟨e, -, he⟩ := hrefuses.bind (showSend key)
    rw [he]
    exact .inl ⟨_, rfl⟩

/-- What is sent back: no body if only the head was asked for. -/
def sent (r : ApiRequest) (result : Except ApiError ApiAnswer) : ApiAnswer :=
  if r.method = "HEAD" then { answerTo result with body := none } else answerTo result

/-- What is answered once it is known who makes a request. -/
def answered (i : Interface) (r : ApiRequest) (place : Place) :
    Except ApiError ApiKey → Program ApiAnswer
  | .error e => pure (sent r (.error e))
  | .ok key => (i.proceed r place key).run >>= fun result => pure (sent r result)

theorem respond_eq {place : Place} (hplace : Place.ofPath? r.path = some place)
    (hversioned : place.isOpen = false) :
    i.respond r = (keyOf r).run >>= i.answered r place := by
  have hsent : i.respond r = (i.handle r).run >>= fun result => pure (sent r result) := by
    refine bind_congr fun result => ?_
    cases result <;> rfl
  rw [hsent, handle_eq hplace hversioned, ExceptT.run_bind, bind_assoc]
  refine bind_congr fun outcome => ?_
  cases outcome <;> rfl

/-- A look at the sends shows a key the same in both tables. -/
theorem shown_eq {t t' : Tables} (hagree : t.AgreeFor key t')
    (hadmin : key.hasScope scopeAdmin = false) (id : Uuid) :
    shown key (.ok (t.send? id)) = shown key (.ok (t'.send? id)) := by
  rw [shown, shown, hagree.seen_eq hadmin]

theorem exists_completes_proceed {text : String} {result : Except ApiError ApiAnswer} {v : Premises}
    (hadmin : key.hasScope scopeAdmin = false) (hagree : u.AgreeFor key u')
    (hrun : (i.proceed r (.sendRecord text) key).run.Completes (Premises.acts actor) u result v) :
    ∃ v', (i.proceed r (.sendRecord text) key).run.Completes (Premises.acts actor) u' result v' := by
  rcases run_proceed_sendRecord i r text key with ⟨given, hgiven⟩ | ⟨id, hlook⟩
  · rw [hgiven] at hrun ⊢
    obtain ⟨rfl, rfl⟩ := completes_pure.1 hrun
    exact ⟨u', completes_pure.2 ⟨rfl, rfl⟩⟩
  · rw [hlook] at hrun ⊢
    obtain ⟨reply, w, hlooked, hend⟩ := Completes.of_bind hrun
    obtain ⟨rfl, rfl⟩ := completes_pure.1 hend
    have hacts := completes_request.1 hlooked
    rcases hacts.1.2.1.1 with ⟨now, rfl, -⟩ | ⟨⟨failure, rfl⟩, -⟩
    · obtain ⟨v', hacts', -⟩ := u'.exists_acts actor (.store (.send id))
        (.ok (u'.scene.tables.send? id)) rfl ⟨.inl ⟨now, rfl, rfl⟩, rfl⟩
      refine ⟨v', (completes_request.2 hacts').bind (completes_pure.2 ⟨?_, rfl⟩)⟩
      exact shown_eq hagree hadmin id
    · obtain ⟨v', hacts', -⟩ := u'.exists_acts actor (.store (.send id)) (.error failure) rfl
        ⟨.inr ⟨⟨failure, rfl⟩, rfl⟩, rfl⟩
      exact ⟨v', (completes_request.2 hacts').bind (completes_pure.2 ⟨rfl, rfl⟩)⟩

theorem alone_proceed_eq {text : String} (hadmin : key.hasScope scopeAdmin = false)
    (hagree : u.AgreeFor key u') (c : Circumstances) (clock : Nat) :
    ((i.proceed r (.sendRecord text) key).run.alone (Premises.respond c actor clock) u).1 =
      ((i.proceed r (.sendRecord text) key).run.alone (Premises.respond c actor clock) u').1 := by
  rcases run_proceed_sendRecord i r text key with ⟨given, hgiven⟩ | ⟨id, hlook⟩
  · rw [hgiven]
    rfl
  · rw [hlook, alone_bind, alone_bind]
    change shown key (Premises.respond c actor clock (.store (.send id)) u).1 =
      shown key (Premises.respond c actor clock (.store (.send id)) u').1
    simp only [Premises.respond, Circumstances.reaction]
    split
    · rfl
    · exact shown_eq hagree hadmin id

/-- A request comes with a key, if with any. -/
def ComesWith (actor : Actor) (r : ApiRequest) (key : ApiKey) (u : Premises) : Prop :=
  ∀ k w, (keyOf r).run.Completes (Premises.acts actor) u (.ok k) w → k = key

theorem completes_keyOf_matched {outcome : Except ApiError ApiKey} {w : Premises}
    (hagree : u.AgreeFor key u')
    (hrun : (keyOf r).run.Completes (Premises.acts actor) u outcome w) :
    ∃ w', (keyOf r).run.Completes (Premises.acts actor) u' outcome w' ∧ w.AgreeFor key w' :=
  hrun.matched (fun _ _ _ _ _ => Premises.acts_matched) (asks_keyOf r) hagree

theorem ComesWith.of_agreeFor (h : ComesWith actor r key u) (hagree : u.AgreeFor key u') :
    ComesWith actor r key u' := by
  have hback : u'.AgreeFor key u := Tables.AgreeFor.symm hagree
  intro k w hrun
  obtain ⟨v, hrun', -⟩ := completes_keyOf_matched hback hrun
  exact h k v hrun'

theorem exists_completes_respond {text : String}
    (hplace : Place.ofPath? r.path = some (.sendRecord text))
    (hadmin : key.hasScope scopeAdmin = false) (hcomes : ComesWith actor r key u)
    (hagree : u.AgreeFor key u') {answer : ApiAnswer}
    (h : ∃ v, (i.respond r).Completes (Premises.acts actor) u answer v) :
    ∃ v', (i.respond r).Completes (Premises.acts actor) u' answer v' := by
  obtain ⟨v, hrun⟩ := h
  rw [respond_eq hplace rfl] at hrun ⊢
  obtain ⟨outcome, w, hkey, hrest⟩ := Completes.of_bind hrun
  obtain ⟨w', hkey', hw⟩ := completes_keyOf_matched hagree hkey
  cases outcome with
  | error e =>
      obtain ⟨rfl, rfl⟩ := completes_pure.1 hrest
      exact ⟨w', hkey'.bind (completes_pure.2 ⟨rfl, rfl⟩)⟩
  | ok k =>
      obtain rfl := hcomes k w hkey
      obtain ⟨result, x, hproceed, hend⟩ := Completes.of_bind hrest
      obtain ⟨rfl, rfl⟩ := completes_pure.1 hend
      obtain ⟨v', hproceed'⟩ := exists_completes_proceed hadmin hw hproceed
      exact ⟨v', hkey'.bind (hproceed'.bind (completes_pure.2 ⟨rfl, rfl⟩))⟩

theorem alone_respond_eq {text : String}
    (hplace : Place.ofPath? r.path = some (.sendRecord text))
    (hadmin : key.hasScope scopeAdmin = false) (hcomes : ComesWith actor r key u)
    (hagree : u.AgreeFor key u') (c : Circumstances) (clock : Nat) :
    ((i.respond r).alone (Premises.respond c actor clock) u).1 =
      ((i.respond r).alone (Premises.respond c actor clock) u').1 := by
  have hstep : ∀ e v v', e.Identifies → v.AgreeFor key v' →
      (Premises.respond c actor clock e v).1 = (Premises.respond c actor clock e v').1 ∧
        (Premises.respond c actor clock e v).2.AgreeFor key (Premises.respond c actor clock e v').2 :=
    fun _ _ _ => Premises.respond_matched c clock
  obtain ⟨hsame, hw⟩ := Program.alone_matched hstep (asks_keyOf r) hagree
  have hkey := Premises.completes c actor clock (keyOf r).run u
  rw [respond_eq hplace rfl, alone_bind, alone_bind, ← hsame]
  cases houtcome : ((keyOf r).run.alone (Premises.respond c actor clock) u).1 with
  | error e => rfl
  | ok k =>
      rw [houtcome] at hkey
      obtain rfl := hcomes k _ hkey
      rw [answered, alone_bind, alone_bind, alone_proceed_eq hadmin hw c clock]
      rfl

/-- A key that may not administrate learns nothing about the sends of others.  If two stores hold the
same keys and the same sends of the key, a request for a send that comes with it is answered the same
from both, status and body and for every identifier: in the same circumstances it has one answer, and
whatever may go wrong on the way, one set of possible answers. -/
theorem respond_eq_of_agreeFor {text : String} (i : Interface) (r : ApiRequest) (actor : Actor)
    (hplace : Place.ofPath? r.path = some (.sendRecord text))
    (hadmin : key.hasScope scopeAdmin = false) (hcomes : ComesWith actor r key u)
    (hagree : u.AgreeFor key u') :
    (∀ (c : Circumstances) (clock : Nat),
      ((i.respond r).alone (Premises.respond c actor clock) u).1 =
        ((i.respond r).alone (Premises.respond c actor clock) u').1) ∧
    ∀ answer, (∃ v, (i.respond r).Completes (Premises.acts actor) u answer v) ↔
      ∃ v', (i.respond r).Completes (Premises.acts actor) u' answer v' := by
  refine ⟨alone_respond_eq hplace hadmin hcomes hagree, fun answer => ⟨?_, ?_⟩⟩
  · exact exists_completes_respond hplace hadmin hcomes hagree
  · exact exists_completes_respond hplace hadmin (hcomes.of_agreeFor hagree)
      (Tables.AgreeFor.symm hagree)

section

variable {c : Circumstances} {clock : Nat} {secret lead : String}

theorem alone_request_bind {W ε α : Type} {respond : (e : Effect) → W → e.Answer × W} {e : Effect}
    {f : e.Answer → Service ε α} {w : W} :
    (Service.request e >>= f).run.alone respond w =
      (f (respond e w).1).run.alone respond (respond e w).2 := rfl

/-- Where the store can be asked, a secret that opens the first key looked at lets its bearer in. -/
theorem alone_authenticate (hlead : Access.leadOf? secret = some lead)
    (hfair : c.failure? (.keysByLead lead) = none)
    (hfound : (u.scene.tables.keysByLead lead c.now).find?
      (fun k => Access.verifies secret k.hash) = some key)
    (hvalid : key.isExpired c.now = false) :
    ((Access.authenticate secret).run.alone (Premises.respond c actor clock) u).1 = .ok key := by
  have hreply : (Premises.respond c actor clock (.store (.keysByLead lead)) u).1 =
      .ok (u.scene.tables.keysByLead lead c.now) := by
    simp only [Premises.respond, Circumstances.reaction, hfair]
    rfl
  rw [Access.authenticate, hlead]
  change (Program.alone _ (ExceptT.run (Service.request _ >>= _)) _).1 = _
  rw [alone_request_bind, hreply]
  simp only [hfound]
  change (Program.alone _ (ExceptT.run (Service.request _ >>= _)) _).1 = _
  rw [alone_request_bind, if_neg]
  · rfl
  · simp [Premises.respond, Circumstances.reaction, Premises.tally, hvalid]

theorem alone_keyOf
    (hsecret : Access.presented? (r.header? "authorization") (r.header? "x-api-key") = some secret)
    (hlead : Access.leadOf? secret = some lead) (hfair : c.failure? (.keysByLead lead) = none)
    (hfound : (u.scene.tables.keysByLead lead c.now).find?
      (fun k => Access.verifies secret k.hash) = some key)
    (hvalid : key.isExpired c.now = false) :
    ((keyOf r).run.alone (Premises.respond c actor clock) u).1 = .ok key := by
  rw [keyOf, hsecret]
  change (Program.alone _ (Except.mapError _ <$> (Access.authenticate secret).run) _).1 = _
  rw [← bind_pure_comp, alone_bind, alone_authenticate hlead hfair hfound hvalid]
  rfl

theorem identifier_eq {text read : String} {id : Uuid} (hsegment : Text.segmentText? text = some read)
    (hid : Uuid.parse? read = some id) : identifier text = pure id := by
  rw [identifier, segment, hsegment]
  change Service.found _ (Uuid.parse? read) = _
  rw [hid]
  rfl

/-- A look at the sends, made with a key that is found. -/
theorem alone_respond_of_keyOf {text method : String} {id : Uuid}
    (hplace : Place.ofPath? r.path = some (.sendRecord text))
    (hmethod : (Place.sendRecord text).method? r.method = some method)
    (hid : identifier text = pure id) (hscope : key.hasScope scopeSend = true)
    (hfair : c.failure? (.send id) = none)
    (hkey : ((keyOf r).run.alone (Premises.respond c actor clock) u).1 = .ok key) :
    ((i.respond r).alone (Premises.respond c actor clock) u).1 =
      sent r (shown key (.ok (u.scene.tables.send? id))) := by
  have hsends : ((keyOf r).run.alone (Premises.respond c actor clock) u).2.scene.tables.sends =
      u.scene.tables.sends := by
    have hrun := Premises.completes c actor clock (keyOf r).run u
    rcases (completes_keyOf hrun).1.tables with hsame | ⟨used, now, -, htouched⟩
    · rw [hsame]
    · rw [htouched]
      rfl
  have hproceed : i.proceed r (.sendRecord text) key = showSend key id := by
    rw [proceed, hmethod]
    change identifier text >>= showSend key = _
    rw [hid, pure_bind]
  rw [respond_eq hplace rfl, alone_bind, hkey, answered, alone_bind, hproceed,
    run_showSend id hscope, alone_bind]
  change sent r (shown key (Premises.respond c actor clock (.store (.send id)) _).1) = _
  simp only [Premises.respond, Circumstances.reaction, hfair]
  change sent r (shown key (.ok (Tables.send? _ id))) = _
  rw [Tables.send?, hsends, Tables.send?]

end

end Interface

namespace Rehearsal

/-- A key that may send, and nothing else. -/
def sender : ApiKey :=
  { Access.Trial.key 1 (Digest.sha256Hex Access.Trial.secret) with scopes := .ofStrings ["send"] }

def record (id owner : Nat) : SendRecord :=
  ⟨⟨id⟩, some ⟨owner⟩, "news@here.example", "reader@there.example", "here.example", "north",
    .known .sent, some "m-1", none, ⟨0, 0⟩, ⟨0, 0⟩⟩

/-- There is the one key, and some sends. -/
def holding (sends : List SendRecord) : Premises :=
  ⟨⟨{ keys := [sender], sends }, [], []⟩, .empty, .initial⟩

def look (id : Nat) : ApiRequest :=
  ⟨"GET", "/api/v1/sends/" ++ (Uuid.mk id).display, [("x-api-key", Access.Trial.secret)], ""⟩

end Rehearsal

namespace Interface

open Rehearsal (fair holding interface look record sender)

theorem keyOf_look (id : Nat) (sends : List SendRecord) :
    ((keyOf (look id)).run.alone (Premises.respond (fair "waiting") .engine 0)
      (holding sends)).1 = .ok sender := by
  have hsecret : Access.presented? ((look id).header? "authorization")
      ((look id).header? "x-api-key") = some Access.Trial.secret := by
    have hauthorization : (look id).header? "authorization" = none := rfl
    have hheader : (look id).header? "x-api-key" = some Access.Trial.secret := rfl
    rw [hauthorization, hheader]
    decide +kernel
  have hfound : ((holding sends).scene.tables.keysByLead Access.Trial.lead (fair "waiting").now).find?
      (fun k => Access.verifies Access.Trial.secret k.hash) = some sender := by
    have hlooked : (holding sends).scene.tables.keysByLead Access.Trial.lead (fair "waiting").now =
        [sender] := rfl
    rw [hlooked]
    exact List.find?_cons_of_pos (Access.verifies_sha256Hex _)
  have hfair : (fair "waiting").failure? (.keysByLead Access.Trial.lead) = none := rfl
  have hvalid : sender.isExpired (fair "waiting").now = false := rfl
  exact alone_keyOf hsecret Access.Trial.leadOf_secret hfair hfound hvalid

theorem respond_look {id : Nat} (sends : List SendRecord)
    (hplace : Place.ofPath? (look id).path = some (.sendRecord (Uuid.mk id).display))
    (hsegment : Text.segmentText? (Uuid.mk id).display = some (Uuid.mk id).display)
    (hid : Uuid.parse? (Uuid.mk id).display = some ⟨id⟩) :
    ((interface.respond (look id)).alone (Premises.respond (fair "waiting") .engine 0)
        (holding sends)).1 =
      answerTo (shown sender (.ok ((holding sends).scene.tables.send? ⟨id⟩))) := by
  have hscope : sender.hasScope scopeSend = true := by decide +kernel
  have hmethod : (Place.sendRecord (Uuid.mk id).display).method? (look id).method = some "GET" :=
    rfl
  have hreads : (fair "waiting").failure? (.send ⟨id⟩) = none := rfl
  have hwhole : (look id).method ≠ "HEAD" := by
    change "GET" ≠ "HEAD"
    decide
  rw [alone_respond_of_keyOf hplace hmethod (identifier_eq hsegment hid) hscope hreads
    (keyOf_look id sends), sent, if_neg hwhole]

/-- A send of another key is not found, as if there were none; one of its own is shown. -/
theorem foreign_like_absent :
    ∃ text, Place.ofPath? (look 2).path = some (.sendRecord text) ∧
      sender.hasScope scopeAdmin = false ∧
      ComesWith .engine (look 2) sender (holding [record 1 1, record 2 7]) ∧
      (holding [record 1 1, record 2 7]).AgreeFor sender (holding [record 1 1]) ∧
      ((interface.respond (look 2)).alone (Premises.respond (fair "waiting") .engine 0)
          (holding [record 1 1, record 2 7])).1 =
        ((interface.respond (look 2)).alone (Premises.respond (fair "waiting") .engine 0)
          (holding [record 1 1])).1 ∧
      ((interface.respond (look 2)).alone (Premises.respond (fair "waiting") .engine 0)
          (holding [record 1 1])).1 = (ApiError.notFound "Send not found").answer ∧
      ((interface.respond (look 1)).alone (Premises.respond (fair "waiting") .engine 0)
          (holding [record 1 1])).1 = .ok (ApiAnswer.sendJson (record 1 1)) := by
  have hplace : Place.ofPath? (look 2).path = some (.sendRecord (Uuid.mk 2).display) := by
    decide +kernel
  have hown : Place.ofPath? (look 1).path = some (.sendRecord (Uuid.mk 1).display) := by
    decide +kernel
  have hadmin : sender.hasScope scopeAdmin = false := by decide +kernel
  have hcomes : ComesWith .engine (look 2) sender (holding [record 1 1, record 2 7]) := by
    intro k w hrun
    exact List.mem_singleton.1 ((completes_keyOf hrun).2.1 k rfl)
  have hagree : (holding [record 1 1, record 2 7]).AgreeFor sender (holding [record 1 1]) := by
    refine Tables.AgreeFor.of_mem rfl (by decide) (by decide) ?_
    intro s hs
    have hforeign : s ≠ record 2 7 := by
      rintro rfl
      exact absurd hs (by decide)
    simp [holding, hforeign]
  obtain ⟨hsame, -⟩ := respond_eq_of_agreeFor interface (look 2) .engine hplace hadmin hcomes hagree
  refine ⟨_, hplace, hadmin, hcomes, hagree, hsame (fair "waiting") 0, ?_, ?_⟩
  · rw [respond_look _ hplace (by decide +kernel) (by decide +kernel)]
    rfl
  · rw [respond_look _ hown (by decide +kernel) (by decide +kernel)]
    rfl

end Interface

end Mailroom
