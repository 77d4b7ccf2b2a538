import Mailroom.Proofs.Concurrency.Office

/-!
Runs of programs that nobody interrupts, taken apart.  Main statement: one program after another
runs in two runs, the second from where the first has come to.
-/

namespace Mailroom

namespace Program

variable {W α β : Type} {acts : Acts W} {p : Program α} {f : α → Program β}

theorem Ends.bind {a : α} {b : β} (hp : p.Ends a) (hf : (f a).Ends b) : (p >>= f).Ends b := by
  change (p.andThen f).Ends b
  induction hp with
  | done a => exact hf
  | join htasks _ _ ih => exact .join htasks (ih hf)

theorem Ends.of_bind {b : β} (h : (p >>= f).Ends b) : ∃ a, p.Ends a ∧ (f a).Ends b := by
  change (p.andThen f).Ends b at h
  induction p with
  | done a => exact ⟨a, .done a, h⟩
  | ask e next _ => cases h
  | fork admission count tasks next _ ih =>
      cases h with
      | join htasks hnext =>
          obtain ⟨a, ha, hb⟩ := ih _ hnext
          exact ⟨a, .join htasks ha, hb⟩

theorem Turn.bind {q : Program α} {e : Effect} {answer : e.Answer} (h : p.Turn e answer q)
    (f : α → Program β) : (p >>= f).Turn e answer (q >>= f) := by
  change (p.andThen f).Turn e answer (q.andThen f)
  induction h with
  | ask answer => exact .ask answer
  | task i hturn _ => exact .task i hturn
  | join htasks _ ih => exact .join htasks (ih f)

theorem Turn.bind_of_ends {q : Program β} {a : α} {e : Effect} {answer : e.Answer}
    (hp : p.Ends a) (h : (f a).Turn e answer q) : (p >>= f).Turn e answer q := by
  change (p.andThen f).Turn e answer q
  induction hp with
  | done a => exact h
  | join htasks _ _ ih => exact .join htasks (ih h)

/-- A turn of one program after another is a turn of the first one, until it has ended. -/
theorem Turn.of_bind {q : Program β} {e : Effect} {answer : e.Answer}
    (h : (p >>= f).Turn e answer q) :
    (∃ left, p.Turn e answer left ∧ q = left >>= f) ∨ ∃ a, p.Ends a ∧ (f a).Turn e answer q := by
  change (p.andThen f).Turn e answer q at h
  induction p with
  | done a => exact .inr ⟨a, .done a, h⟩
  | ask e next _ =>
      cases h with
      | ask answer => exact .inl ⟨_, .ask answer, rfl⟩
  | fork admission count tasks next _ ih =>
      cases h with
      | task i hturn => exact .inl ⟨_, .task i hturn, rfl⟩
      | join htasks hturn =>
          rcases ih _ hturn with ⟨left, hleft, hq⟩ | ⟨a, ha, hrest⟩
          · exact .inl ⟨left, .join htasks hleft, hq⟩
          · exact .inr ⟨a, .join htasks ha, hrest⟩

/-- A run is one on any part of the state whose changes its requests account for. -/
theorem Completes.image {V : Type} {acts' : Acts V} (part : W → V) {w v : W} {a : α}
    (h : p.Completes acts w a v)
    (hacts : ∀ e answer u v, acts e answer u v → acts' e answer (part u) (part v)) :
    p.Completes acts' (part w) a (part v) := by
  induction h with
  | ends hends => exact .ends hends
  | turn hturn hstep _ ih => exact .turn hturn (hacts _ _ _ _ hstep) ih

theorem Completes.mono {acts' : Acts W} {w v : W} {a : α} (h : p.Completes acts w a v)
    (hacts : ∀ e answer u v, acts e answer u v → acts' e answer u v) : p.Completes acts' w a v :=
  h.image id hacts

theorem Completes.bind {w v u : W} {a : α} {b : β} (hp : p.Completes acts w a v)
    (hf : (f a).Completes acts v b u) : (p >>= f).Completes acts w b u := by
  induction hp with
  | ends hends =>
      cases hf with
      | ends hend => exact .ends (hends.bind hend)
      | turn hturn hacts hrest => exact .turn (.bind_of_ends hends hturn) hacts hrest
  | turn hturn hacts _ ih => exact .turn (hturn.bind f) hacts (ih hf)

theorem Completes.of_bind {w u : W} {b : β} (h : (p >>= f).Completes acts w b u) :
    ∃ a v, p.Completes acts w a v ∧ (f a).Completes acts v b u := by
  generalize hq : p >>= f = q at h
  induction h generalizing p with
  | ends hends =>
      subst hq
      obtain ⟨a, ha, hb⟩ := hends.of_bind
      exact ⟨a, _, .ends ha, .ends hb⟩
  | turn hturn hacts hrest ih =>
      subst hq
      rcases hturn.of_bind with ⟨left, hleft, rfl⟩ | ⟨a, ha, hstep⟩
      · obtain ⟨a, v, hp, hf⟩ := ih rfl
        exact ⟨a, v, .turn hleft hacts hp, hf⟩
      · exact ⟨a, _, .ends ha, .turn hstep hacts hrest⟩

theorem completes_pure {a b : α} {w v : W} :
    (pure a : Program α).Completes acts w b v ↔ b = a ∧ v = w := by
  constructor
  · intro h
    cases h with
    | ends hends =>
        cases hends
        exact ⟨rfl, rfl⟩
    | turn hturn _ _ => cases hturn
  · rintro ⟨rfl, rfl⟩
    exact .ends (.done _)

theorem completes_request {e : Effect} {answer : e.Answer} {w v : W} :
    (request e).Completes acts w answer v ↔ acts e answer w v := by
  constructor
  · intro h
    cases h with
    | ends hends => cases hends
    | turn hturn hacts hrest =>
        cases hturn with
        | ask answer =>
            obtain ⟨rfl, rfl⟩ := completes_pure.1 hrest
            exact hacts
  · exact fun hacts => .turn (.ask answer) hacts (.ends (.done answer))

theorem completes_map {g : α → β} {b : β} {w v : W} :
    (g <$> p).Completes acts w b v ↔ ∃ a, p.Completes acts w a v ∧ b = g a := by
  rw [← bind_pure_comp]
  constructor
  · intro h
    obtain ⟨a, u, hp, hend⟩ := Completes.of_bind h
    obtain ⟨rfl, rfl⟩ := completes_pure.1 hend
    exact ⟨a, hp, rfl⟩
  · rintro ⟨a, hp, rfl⟩
    exact hp.bind (completes_pure.2 ⟨rfl, rfl⟩)

end Program

namespace Service

open Program (Completes completes_map completes_pure completes_request)

variable {W ε α β : Type} {acts : Acts W} {w v u : W}

theorem completes_of_bind {x : Service ε α} {f : α → Service ε β} {result : Except ε β}
    (h : (x >>= f).run.Completes acts w result u) :
    (∃ a v, x.run.Completes acts w (.ok a) v ∧ (f a).run.Completes acts v result u) ∨
      ∃ error, x.run.Completes acts w (.error error) u ∧ result = .error error := by
  obtain ⟨first, v, hx, hrest⟩ := Completes.of_bind h
  cases first with
  | ok a => exact .inl ⟨a, v, hx, hrest⟩
  | error error =>
      obtain ⟨rfl, rfl⟩ := completes_pure.1 hrest
      exact .inr ⟨error, hx, rfl⟩

theorem completes_bind {x : Service ε α} {f : α → Service ε β} {a : α} {result : Except ε β}
    (hx : x.run.Completes acts w (.ok a) v) (hf : (f a).run.Completes acts v result u) :
    (x >>= f).run.Completes acts w result u :=
  Completes.bind hx hf

theorem completes_found_bind {error : ε} {value : Option α} {f : α → Service ε β}
    {result : Except ε β} :
    (found error value >>= f).run.Completes acts w result u ↔
      (∃ a, value = some a ∧ (f a).run.Completes acts w result u) ∨
        value = none ∧ result = .error error ∧ u = w := by
  cases value with
  | some a =>
      refine ⟨fun h => .inl ⟨a, rfl, h⟩, ?_⟩
      rintro (⟨b, hb, h⟩ | ⟨hnone, -⟩)
      · obtain rfl := Option.some.inj hb
        exact h
      · cases hnone
  | none =>
      refine ⟨fun h => .inr ⟨rfl, completes_pure.1 h⟩, ?_⟩
      rintro (⟨b, hb, -⟩ | ⟨-, h⟩)
      · cases hb
      · exact completes_pure.2 h

theorem completes_request_bind {e : Effect} {f : e.Answer → Service ε β} {result : Except ε β} :
    (request e >>= f).run.Completes acts w result u ↔
      ∃ answer v, acts e answer w v ∧ (f answer).run.Completes acts v result u := by
  rw [request, run_lift_bind]
  constructor
  · intro h
    obtain ⟨answer, v, hrequest, hrest⟩ := Completes.of_bind h
    exact ⟨answer, v, completes_request.1 hrequest, hrest⟩
  · rintro ⟨answer, v, hacts, hrest⟩
    exact Completes.bind (completes_request.2 hacts) hrest

theorem completes_liftExcept {x result : Except ε α} :
    (liftExcept x : Service ε α).run.Completes acts w result v ↔ result = x ∧ v = w := by
  cases x <;> exact completes_pure

theorem completes_adapt {ε' : Type} {cause : ε → ε'} {x : Service ε α} {result : Except ε' α} :
    (x.adapt cause).run.Completes acts w result v ↔
      ∃ inner, x.run.Completes acts w inner v ∧ result = inner.mapError cause :=
  completes_map

theorem completes_store [OfFailure ε] {call : StoreCall} {result : Except ε call.Reply} :
    (store call : Service ε _).run.Completes acts w result v ↔
      ∃ answer, acts (.store call) answer w v ∧ result = answer.mapError OfFailure.ofFailure := by
  constructor
  · intro h
    obtain ⟨answer, u, hrequest, hrest⟩ := Completes.of_bind h
    have hacts := completes_request.1 hrequest
    cases answer with
    | ok reply =>
        obtain ⟨rfl, rfl⟩ := completes_pure.1 hrest
        exact ⟨.ok reply, hacts, rfl⟩
    | error failure =>
        obtain ⟨rfl, rfl⟩ := completes_pure.1 hrest
        exact ⟨.error failure, hacts, rfl⟩
  · rintro ⟨answer, hacts, rfl⟩
    apply Completes.bind (completes_request.2 hacts)
    cases answer <;> exact completes_pure.2 ⟨rfl, rfl⟩

end Service

section

open Program (Meets)

variable {ε α β : Type} {actor : Actor} {w v : Scene} {post : β → Scene → Prop}

/-- A service of an actor that works by itself, with a store that does not fail, comes to a value
and a scene as wanted, whatever else it is answered. -/
def Service.Gives (actor : Actor) (x : Service ε α) (w : Scene) (post : α → Scene → Prop) : Prop :=
  x.run.Meets (Surroundings.reliable.acts actor) (fun _ _ => False) (fun _ _ => True)
    (fun result v => ∃ a, result = .ok a ∧ post a v) w

namespace Service.Gives

theorem completes {x : Service ε β} {result : Except ε β} (hx : x.Gives actor w post)
    (hrun : x.run.Completes (Surroundings.reliable.acts actor) w result v) :
    ∃ b, result = .ok b ∧ post b v :=
  Meets.completes hx hrun

theorem pure {b : β} (hw : post b w) : (Pure.pure b : Service ε β).Gives actor w post :=
  Meets.pure (stable_never _) ⟨b, rfl, hw⟩

theorem bind {x : Service ε α} {f : α → Service ε β}
    (hx : x.Gives actor w fun a v => (f a).Gives actor v post) : (x >>= f).Gives actor w post := by
  apply Meets.serviceBind
  apply Meets.weaken hx
  rintro result v ⟨a, rfl, hf⟩
  exact hf

theorem weaken {x : Service ε β} {post' : β → Scene → Prop} (hx : x.Gives actor w post')
    (hpost : ∀ b v, post' b v → post b v) : x.Gives actor w post := by
  apply Meets.weaken hx
  rintro result v ⟨b, rfl, hb⟩
  exact ⟨b, rfl, hpost b v hb⟩

theorem store [OfFailure ε] {call : StoreCall} {post : call.Reply → Scene → Prop}
    (hnext : ∀ now v, v.tables = (w.tables.serve now call).2 →
      post (w.tables.serve now call).1 v) :
    (Service.store call : Service ε _).Gives actor w post := by
  intro u hu answer v hacts
  obtain rfl := (stable_never (w = ·)).many rfl hu
  cases answer with
  | ok reply =>
      obtain ⟨now, rfl, htables⟩ := Surroundings.acts_ok hacts
      exact ⟨trivial, Meets.pure (stable_never _) ⟨_, rfl, hnext now v htables⟩⟩
  | error failure => exact absurd hacts.1 id

theorem request {e : Effect} {post : e.Answer → Scene → Prop}
    (hnext : ∀ answer v, Surroundings.reliable.acts actor e answer w v → post answer v) :
    (Service.request e : Service ε _).Gives actor w post := by
  intro u hu answer v hacts
  obtain rfl := (stable_never (w = ·)).many rfl hu
  exact ⟨trivial, Meets.pure (stable_never _) ⟨_, rfl, hnext answer v hacts⟩⟩

theorem ofExcept {result : Except ε β} {b : β} (hresult : result = .ok b) (hw : post b w) :
    (liftExcept result : Service ε β).Gives actor w post := by
  subst hresult
  exact pure hw

theorem found {error : ε} {value : Option β} {b : β} (hvalue : value = some b) (hw : post b w) :
    (Service.found error value).Gives actor w post := by
  subst hvalue
  exact pure hw

end Service.Gives

end

end Mailroom
