import Mathlib.Order.BooleanAlgebra.Set
import Mailroom.Proofs.Delivery.Likeness

/-!
Programs whose end is determined by where they begin.  Such a program changes only some parts of the
scene, and as long as the others leave these alone, it comes from scenes that look alike there to the
same result and to scenes that look alike again.  Main statements: one such program after another is
one, and so are tasks side by side that work on different parts.
-/

namespace Mailroom

open Program (Meets)

/-- Two scenes are the same in some parts, instants included. -/
def Same (parts : Set Part) (u v : Scene) : Prop := ∀ part ∈ parts, u.sight part = v.sight part

variable {b : Behaviour} {g : Ground} {parts more : Set Part} {before : Scene → Scene → Prop}
  {u v w : Scene} {α β γ : Type}

theorem Same.alike (h : Same parts u v) : Alike parts u v :=
  fun part hpart => congrArg Sight.undated (h part hpart)

theorem stable_fits : Stable (ChangesOnly g parts) (Scene.Fits g) := fun _ _ hu hstep => hstep.1 hu

theorem stable_same (hapart : ∀ part ∈ more, part ∉ parts) (w : Scene) :
    Stable (ChangesOnly g parts) (Same more w) := by
  intro u v hu hstep part hpart
  rw [hstep.2 part (hapart part hpart)]
  exact hu part hpart

theorem stable_alike (hapart : ∀ part ∈ more, part ∉ parts) (w : Scene) :
    Stable (ChangesOnly g parts) (Alike more w) := by
  intro u v hu hstep part hpart
  rw [hstep.2 part (hapart part hpart)]
  exact hu part hpart

/-- A way to compare scenes before a program, which shows at least what its parts look like. -/
structure IsLook (g : Ground) (parts : Set Part) (before : Scene → Scene → Prop) : Prop where
  euclidean : ∀ {w u v}, before w u → before w v → before u v
  alike : ∀ {u v}, before u v → Alike parts u v
  stable : ∀ w, Stable (ChangesOnly g partsᶜ) (before w)

theorem isLook_alike (g : Ground) (parts : Set Part) : IsLook g parts (Alike parts) where
  euclidean hu hv part hpart := (hu part hpart).symm.trans (hv part hpart)
  alike := id
  stable := stable_alike fun _ => not_not_intro

theorem isLook_same (g : Ground) (parts : Set Part) : IsLook g parts (Same parts) where
  euclidean hu hv part hpart := (hu part hpart).symm.trans (hv part hpart)
  alike := Same.alike
  stable := stable_same fun _ => not_not_intro

/-- From all scenes that compare to one, a program comes to one result and to scenes that look alike
in its parts. -/
def Converges (b : Behaviour) (g : Ground) (parts : Set Part) (before : Scene → Scene → Prop)
    (p : Program α) : Prop :=
  ∀ w₀, ∃ a v₀, ∀ w, w.Fits g → before w₀ w →
    p.Meets b.acts (ChangesOnly g partsᶜ) (ChangesOnly g parts)
      (fun a' v => a' = a ∧ v.Fits g ∧ Alike parts v₀ v) w

/-- Scenes that all look alike look like one of them. -/
theorem exists_alike {P : Scene → Prop} (w : Scene) (h : ∀ u v, P u → P v → Alike parts u v) :
    ∃ v₀, ∀ v, P v → Alike parts v₀ v := by
  by_cases hsome : ∃ u, P u
  · obtain ⟨u, hu⟩ := hsome
    exact ⟨u, fun v hv => h u v hu hv⟩
  · exact ⟨w, fun v hv => absurd ⟨v, hv⟩ hsome⟩

namespace Converges

theorem stable_converged {a a' : α} {v₀ : Scene} :
    Stable (ChangesOnly g partsᶜ) fun v => a' = a ∧ v.Fits g ∧ Alike parts v₀ v :=
  (stable_const _ _).and (stable_fits.and (stable_alike (fun _ => not_not_intro) v₀))

theorem pure (a : α) : Converges b g parts (Alike parts) (Pure.pure a : Program α) :=
  fun w₀ => ⟨a, w₀, fun _ hw halike => Meets.pure stable_converged ⟨rfl, hw, halike⟩⟩

theorem bind {p : Program α} {f : α → Program β} (hp : Converges b g parts before p)
    (hf : ∀ a, Converges b g parts (Alike parts) (f a)) : Converges b g parts before (p >>= f) := by
  intro w₀
  obtain ⟨a, u₀, hp⟩ := hp w₀
  obtain ⟨c, v₀, hf⟩ := hf a u₀
  refine ⟨c, v₀, fun w hw hbefore => Meets.bind ((hp w hw hbefore).weaken ?_)⟩
  rintro _ v ⟨rfl, hv, halike⟩
  exact hf v hv halike

/-- A request after which the program goes on in the same way whatever it was answered. -/
theorem request_of_same [Nonempty α] {e : Effect} {k : e.Answer → Program α}
    (hlook : IsLook g parts before) (he : e.IsDispatch) (hsub : e.footprint g ⊆ parts)
    (hsame : ∀ {u u' v v' a a'}, u.Fits g → u'.Fits g → before u u' → b.acts e a u v →
      b.acts e a' u' v' → k a = k a')
    (hk : ∀ {u a v}, u.Fits g → b.acts e a u v → Converges b g parts (Alike parts) (k a)) :
    Converges b g parts before (Program.request e >>= k) := by
  intro w₀
  -- one scene from which the request may be answered stands for all others
  by_cases hsome : ∃ u a v, u.Fits g ∧ before w₀ u ∧ b.acts e a u v
  · obtain ⟨u₀, a₀, x₀, hu₀, hbefore₀, hacts₀⟩ := hsome
    obtain ⟨c, v₀, hk⟩ := hk hu₀ hacts₀ x₀
    refine ⟨c, v₀, fun w hw hbefore => ?_⟩
    apply Meets.request (stable_fits.and (hlook.stable w₀)) ⟨hw, hbefore⟩
    rintro a u v ⟨hu, hbefore⟩ hacts
    have hcompare := hlook.euclidean hbefore₀ hbefore
    have hpledge := (he.changesOnly hu hacts).mono hsub
    rw [← hsame hu₀ hu hcompare hacts₀ hacts]
    exact ⟨hpledge, hk v (hpledge.1 hu)
      (he.alike hsub hu₀ hu (hlook.alike hcompare) hacts₀ hacts)⟩
  · obtain ⟨c⟩ := ‹Nonempty α›
    refine ⟨c, w₀, fun w hw hbefore => ?_⟩
    apply Meets.request (stable_fits.and (hlook.stable w₀)) ⟨hw, hbefore⟩
    rintro a u v ⟨hu, hbefore⟩ hacts
    exact absurd ⟨u, a, v, hu, hbefore, hacts⟩ hsome

theorem request_of_agree [Nonempty α] {e : Effect} {k : e.Answer → Program α} (he : e.IsDispatch)
    (hsub : e.footprint g ⊆ parts) (hagree : ∀ a a', e.Agree parts a a' → k a = k a')
    (hk : ∀ a, Converges b g parts (Alike parts) (k a)) :
    Converges b g parts (Alike parts) (Program.request e >>= k) :=
  request_of_same (isLook_alike g parts) he hsub
    (fun hu hu' halike hacts hacts' => hagree _ _ (he.agree hsub hu hu' halike hacts hacts'))
    fun _ _ => hk _

theorem request [Nonempty α] {e : Effect} {k : e.Answer → Program α} (he : e.IsDispatch)
    (hsub : e.footprint g ⊆ parts) (hagree : ∀ a a', e.Agree parts a a' → a = a')
    (hk : ∀ a, Converges b g parts (Alike parts) (k a)) :
    Converges b g parts (Alike parts) (Program.request e >>= k) :=
  request_of_agree he hsub (fun a a' h => congrArg k (hagree a a' h)) hk

/-- What a program does not work on may be looked at as well. -/
theorem mono {p : Program α} (hp : Converges b g parts (Alike parts) p) (hsub : parts ⊆ more) :
    Converges b g more (Alike more) p := by
  intro w₀
  obtain ⟨a, u₀, hp⟩ := hp w₀
  obtain ⟨v₀, hv₀⟩ : ∃ v₀, ∀ v, Alike parts u₀ v ∧ Alike (more \ parts) w₀ v →
      Alike more v₀ v := by
    refine exists_alike w₀ fun u v hu hv part hpart => ?_
    by_cases hin : part ∈ parts
    · exact (hu.1 part hin).symm.trans (hv.1 part hin)
    · exact (hu.2 part ⟨hpart, hin⟩).symm.trans (hv.2 part ⟨hpart, hin⟩)
  refine ⟨a, v₀, fun w hw halike => ?_⟩
  have hown := (hp w hw (halike.mono hsub)).mono
    (fun _ _ h => ChangesOnly.mono h (Set.compl_subset_compl.2 hsub)) (fun _ _ h => h)
    fun _ _ h => h
  have hkept : Stable (ChangesOnly g moreᶜ) (Alike (more \ parts) w₀) :=
    stable_alike (fun _ hpart => not_not_intro hpart.1) w₀
  have hrest := hown.keeping hkept (stable_alike (fun _ hpart => hpart.2) w₀)
    (halike.mono Set.sdiff_subset)
  refine hrest.mono (fun _ _ h => h) (fun _ _ h => h.mono hsub) ?_
  rintro a' v ⟨⟨ha, hv, hparts⟩, hothers⟩
  exact ⟨ha, hv, hv₀ v ⟨hparts, hothers⟩⟩

/-- Tasks side by side that work on different parts. -/
theorem forEach [Nonempty β] {admission : Admission} {xs : List γ} {task : γ → Program β}
    (own : γ → Set Part) (befores : γ → Scene → Scene → Prop) (hlook : IsLook g parts before)
    (hapart : xs.Pairwise fun x y => ∀ part ∈ own x, part ∉ own y)
    (hsub : ∀ x ∈ xs, own x ⊆ parts)
    (hbefore : ∀ x ∈ xs, ∀ {u v}, before u v → befores x u v)
    (htasks : ∀ x ∈ xs, Converges b g (own x) (befores x) (task x)) :
    Converges b g parts before (Program.forEach admission xs task) := by
  intro w₀
  have hends : ∀ x, ∃ a v₀, x ∈ xs → ∀ w, w.Fits g → befores x w₀ w →
      (task x).Meets b.acts (ChangesOnly g (own x)ᶜ) (ChangesOnly g (own x))
        (fun a' v => a' = a ∧ v.Fits g ∧ Alike (own x) v₀ v) w := by
    intro x
    by_cases hx : x ∈ xs
    · obtain ⟨a, v₀, h⟩ := htasks x hx w₀
      exact ⟨a, v₀, fun _ => h⟩
    · obtain ⟨a⟩ := ‹Nonempty β›
      exact ⟨a, w₀, fun h => absurd h hx⟩
  choose result rep hends using hends
  let rest : Set Part := {part | part ∈ parts ∧ ∀ x ∈ xs, part ∉ own x}
  obtain ⟨v₀, hv₀⟩ : ∃ v₀, ∀ v, (∀ x ∈ xs, Alike (own x) (rep x) v) ∧ Alike rest w₀ v →
      Alike parts v₀ v := by
    refine exists_alike w₀ fun u v hu hv part hpart => ?_
    by_cases hin : ∃ x ∈ xs, part ∈ own x
    · obtain ⟨x, hx, hin⟩ := hin
      exact (hu.1 x hx part hin).symm.trans (hv.1 x hx part hin)
    · have hrest : part ∈ rest := ⟨hpart, fun x hx h => hin ⟨x, hx, h⟩⟩
      exact (hu.2 part hrest).symm.trans (hv.2 part hrest)
  refine ⟨xs.map result, v₀, fun w hw hstart => ?_⟩
  have hall : (Program.forEach admission xs task).Meets b.acts (ChangesOnly g partsᶜ)
      (ChangesOnly g parts) (fun results v =>
        List.Forall₂ (fun x a => a = result x ∧ v.Fits g ∧ Alike (own x) (rep x) v) xs results ∧
          v.Fits g ∧ Alike rest w₀ v) w := Meets.forEach_apart
    (hapart.imp fun hxy u v =>
      ⟨fun h => h.mono hxy, fun h => h.mono fun part hy hx => hxy part hx hy⟩)
    (fun x hx _ _ h => h.mono (Set.compl_subset_compl.2 (hsub x hx)))
    (fun x hx _ _ h => h.mono (hsub x hx))
    (fun x hx => hends x hx w hw (hbefore x hx hstart))
    (fun x hx _ => (stable_const _ _).and
      (stable_fits.and (stable_alike (fun _ hpart => not_not_intro (hsub x hx hpart)) _)))
    ⟨hw, (hlook.alike hstart).mono fun _ hpart => hpart.1⟩
    (stable_fits.and (stable_alike (fun _ hpart => not_not_intro hpart.1) w₀))
    (fun x hx => stable_fits.and (stable_alike (fun _ hpart => hpart.2 x hx) w₀))
  refine hall.weaken ?_
  rintro results v ⟨hresults, hv, hothers⟩
  have hvalue : results = xs.map result := by
    rw [← List.forall₂_eq_eq_eq, List.forall₂_map_right_iff]
    exact (hresults.imp fun _ _ h => h.1).flip
  subst hvalue
  have hparts := List.forall₂_same.1 (List.forall₂_map_right_iff.1 hresults)
  exact ⟨rfl, hv, hv₀ v ⟨fun x hx => (hparts x hx).2.2, hothers⟩⟩

section Services

variable {ε : Type}

/-- What a service goes on with when its call to the store has been answered. -/
def goOn [OfFailure ε] {call : StoreCall} (f : call.Reply → Service ε α) :
    call.Answer → Program (Except ε α)
  | .ok reply => (f reply).run
  | .error failure => Pure.pure (.error (OfFailure.ofFailure failure))

theorem run_store_bind [OfFailure ε] (call : StoreCall) (f : call.Reply → Service ε α) :
    (Service.store call >>= f).run = Program.request (.store call) >>= goOn f := by
  refine congrArg (Program.ask (.store call)) (funext fun answer => ?_)
  cases answer <;> rfl

theorem converges_goOn [OfFailure ε] {call : StoreCall} {f : call.Reply → Service ε α}
    (hf : ∀ reply, Converges b g parts (Alike parts) (f reply).run) (answer : call.Answer) :
    Converges b g parts (Alike parts) (goOn f answer) := by
  cases answer with
  | ok reply => exact hf reply
  | error failure => exact pure _

theorem store_of_agree [OfFailure ε] [Nonempty (Except ε α)] {call : StoreCall}
    {f : call.Reply → Service ε α} (hcall : call.IsDispatch) (hsub : call.footprint g ⊆ parts)
    (hagree : ∀ a a', (Effect.store call).Agree parts a a' → goOn f a = goOn f a')
    (hf : ∀ reply, Converges b g parts (Alike parts) (f reply).run) :
    Converges b g parts (Alike parts) (Service.store call >>= f).run := by
  rw [run_store_bind]
  exact request_of_agree hcall hsub hagree (converges_goOn hf)

theorem store [OfFailure ε] [Nonempty (Except ε α)] {call : StoreCall}
    {f : call.Reply → Service ε α} (hcall : call.IsDispatch) (hsub : call.footprint g ⊆ parts)
    (hagree : ∀ a a', (Effect.store call).Agree parts a a' → a = a')
    (hf : ∀ reply, Converges b g parts (Alike parts) (f reply).run) :
    Converges b g parts (Alike parts) (Service.store call >>= f).run :=
  store_of_agree hcall hsub (fun a a' h => congrArg (goOn f) (hagree a a' h)) hf

/-- A call alone. -/
theorem storeOnly [OfFailure ε] {call : StoreCall} [Nonempty (Except ε call.Reply)]
    (hcall : call.IsDispatch) (hsub : call.footprint g ⊆ parts)
    (hagree : ∀ a a', (Effect.store call).Agree parts a a' → a = a') :
    Converges b g parts (Alike parts) (Service.store call : Service ε _).run := by
  rw [← bind_pure (Service.store call)]
  exact store hcall hsub hagree fun reply => pure _

theorem serviceRequest [Nonempty (Except ε α)] {e : Effect} {f : e.Answer → Service ε α}
    (he : e.IsDispatch) (hsub : e.footprint g ⊆ parts)
    (hagree : ∀ a a', e.Agree parts a a' → (f a).run = (f a').run)
    (hf : ∀ a, Converges b g parts (Alike parts) (f a).run) :
    Converges b g parts (Alike parts) (Service.request e >>= f).run := by
  rw [Service.request, Service.run_lift_bind]
  exact request_of_agree he hsub hagree hf

theorem serviceBind {x : Service ε α} {f : α → Service ε β} (hx : Converges b g parts before x.run)
    (hf : ∀ a, Converges b g parts (Alike parts) (f a).run) :
    Converges b g parts before (x >>= f).run := by
  refine bind hx fun result => ?_
  cases result with
  | ok a => exact hf a
  | error error => exact pure _

theorem found (error : ε) (value : Option α) :
    Converges b g parts (Alike parts) (Service.found error value).run := by
  cases value with
  | some a => exact pure _
  | none => exact pure _

theorem lift {p : Program α} (hp : Converges b g parts before p) :
    Converges b g parts before (ExceptT.lift p : Service ε α).run :=
  bind hp fun _ => pure _

end Services

end Converges

end Mailroom
