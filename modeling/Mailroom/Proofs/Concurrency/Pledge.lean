import Mathlib.Data.List.Forall2
import Mathlib.Data.List.Nodup
import Mathlib.Logic.Relation
import Mailroom.Proofs.Concurrency.Turn

/-!
Reasoning about one program among others.  A program relies on what the others may do between its
turns, and pledges what it does in them.  `Program.Meets` says that from a state it keeps its pledge
in every turn, and ends only in states that it should.  Main statements: whoever meets its terms
does so after every turn of its own and of the others, and the tasks of a fork may be looked at one
by one if each relies on no more than the others pledge.
-/

namespace Mailroom

open Relation (ReflTransGen)

variable {W : Type}

/-- Steps of a kind do not end an assertion. -/
def Stable (steps : W → W → Prop) (P : W → Prop) : Prop := ∀ ⦃u v⦄, P u → steps u v → P v

theorem Stable.many {steps : W → W → Prop} {P : W → Prop} (hP : Stable steps P) {u v : W}
    (hu : P u) (hsteps : ReflTransGen steps u v) : P v := by
  induction hsteps with
  | refl => exact hu
  | tail _ hstep ih => exact hP ih hstep

theorem Stable.and {steps : W → W → Prop} {P Q : W → Prop} (hP : Stable steps P)
    (hQ : Stable steps Q) : Stable steps fun w => P w ∧ Q w :=
  fun _ _ hu hstep => ⟨hP hu.1 hstep, hQ hu.2 hstep⟩

theorem stable_const (steps : W → W → Prop) (p : Prop) : Stable steps fun _ => p :=
  fun _ _ hp _ => hp

theorem stable_never (P : W → Prop) : Stable (fun _ _ => False) P := fun _ _ _ h => absurd h id

/-- What a request and its answer may make of a state. -/
abbrev Acts (W : Type) := (e : Effect) → e.Answer → W → W → Prop

namespace Program

/-- In this state a program is within its terms: as long as the others do only what it relies on, it
does only what it pledges, and it ends only in states with the wanted results.  The tasks of a fork
have terms of their own, each relying on what the others pledge; what all of them keep also holds
behind the fork. -/
def Meets (acts : Acts W) : {α : Type} → (rely pledge : W → W → Prop) → Program α →
    (α → W → Prop) → W → Prop
  | _, rely, _, done a, post, w => ∀ v, ReflTransGen rely w v → post a v
  | _, rely, pledge, ask e next, post, w =>
      ∀ u, ReflTransGen rely w u → ∀ answer v, acts e answer u v →
        pledge u v ∧ Meets acts rely pledge (next answer) post v
  | _, rely, pledge, @fork _ β _ count tasks next, post, w =>
      ∃ (relies pledges : Fin count → W → W → Prop) (posts : Fin count → β → W → Prop)
        (kept : W → Prop),
        (∀ i u v, rely u v → relies i u v) ∧
        (∀ i j u v, i ≠ j → pledges j u v → relies i u v) ∧
        (∀ i u v, pledges i u v → pledge u v) ∧
        (∀ i, Meets acts (relies i) (pledges i) (tasks i) (posts i) w) ∧
        kept w ∧ Stable rely kept ∧ (∀ i, Stable (pledges i) kept) ∧
        ∀ results v, kept v → (∀ i, posts i (results i) v) →
          Meets acts rely pledge (next results) post v

variable {acts : Acts W} {rely pledge : W → W → Prop} {α β : Type}

theorem Meets.of_rely {p : Program α} {post : α → W → Prop} {w v : W}
    (hp : Meets acts rely pledge p post w) (hstep : rely w v) :
    Meets acts rely pledge p post v := by
  induction p generalizing rely pledge with
  | done a => exact fun u hu => hp u (.head hstep hu)
  | ask e next _ => exact fun u hu => hp u (.head hstep hu)
  | fork admission count tasks next ihtasks _ =>
      obtain ⟨relies, pledges, posts, kept, hrely, hpledges, hpledge, htasks, hkept, hstable,
        hrest⟩ := hp
      exact ⟨relies, pledges, posts, kept, hrely, hpledges, hpledge,
        fun i => ihtasks i (htasks i) (hrely i _ _ hstep), hstable hkept hstep, hstable, hrest⟩

theorem Meets.result {p : Program α} {post : α → W → Prop} {w : W} {a : α}
    (hp : Meets acts rely pledge p post w) (hends : Ends p a) : post a w := by
  induction hends generalizing rely pledge with
  | done a => exact hp w .refl
  | join htasks hnext ihtasks ihnext =>
      rcases hp with ⟨relies, pledges, posts, kept, _, _, _, hmeets, hkept, _, _, hrest⟩
      exact ihnext (hrest _ w hkept fun i => ihtasks i (hmeets i))

/-- A turn keeps the pledge, and what is left is within the same terms: a task's turn is one that
the other tasks rely on. -/
theorem Meets.turn {p q : Program α} {post : α → W → Prop} {w v : W} {e : Effect}
    {answer : e.Answer} (hp : Meets acts rely pledge p post w) (hturn : Turn p e answer q)
    (hacts : acts e answer w v) : pledge w v ∧ Meets acts rely pledge q post v := by
  induction hturn generalizing rely pledge with
  | ask answer => exact hp w .refl answer v hacts
  | @task α β admission count tasks next e answer left i hturn ih =>
      obtain ⟨relies, pledges, posts, kept, hrely, hpledges, hpledge, htasks, hkept, hstable,
        hkeeps, hrest⟩ := hp
      obtain ⟨hown, hleft⟩ := ih (htasks i) hacts
      refine ⟨hpledge i _ _ hown, relies, pledges, posts, kept, hrely, hpledges, hpledge, ?_,
        hkeeps i hkept hown, hstable, hkeeps, hrest⟩
      intro j
      by_cases hj : j = i
      · subst hj
        simpa using hleft
      · simpa [hj] using (htasks j).of_rely (hpledges j i _ _ hj hown)
  | join htasks hturn ih =>
      rcases hp with ⟨relies, pledges, posts, kept, _, _, _, hmeets, hkept, _, _, hrest⟩
      exact ih (hrest _ w hkept fun i => (hmeets i).result (htasks i)) hacts

theorem Meets.mono {rely' pledge' : W → W → Prop} {p : Program α} {post post' : α → W → Prop}
    {w : W} (hp : Meets acts rely pledge p post w) (hrely : ∀ u v, rely' u v → rely u v)
    (hpledge : ∀ u v, pledge u v → pledge' u v) (hpost : ∀ a v, post a v → post' a v) :
    Meets acts rely' pledge' p post' w := by
  have hmany : ∀ u v, ReflTransGen rely' u v → ReflTransGen rely u v :=
    ReflTransGen.mono hrely
  induction p generalizing w with
  | done a => exact fun v hv => hpost a v (hp v (hmany _ _ hv))
  | ask e next ih =>
      intro u hu answer v hacts
      obtain ⟨hown, hnext⟩ := hp u (hmany _ _ hu) answer v hacts
      exact ⟨hpledge _ _ hown, ih answer hnext hpost⟩
  | fork admission count tasks next _ ih =>
      obtain ⟨relies, pledges, posts, kept, hrelies, hpledges, hown, htasks, hkept, hstable,
        hkeeps, hrest⟩ := hp
      exact ⟨relies, pledges, posts, kept, fun i u v h => hrelies i u v (hrely u v h), hpledges,
        fun i u v h => hpledge u v (hown i u v h), htasks, hkept,
        fun u v hu h => hstable hu (hrely u v h), hkeeps,
        fun results v hv hposts => ih results (hrest results v hv hposts) hpost⟩

theorem Meets.weaken {p : Program α} {post post' : α → W → Prop} {w : W}
    (hp : Meets acts rely pledge p post w) (hpost : ∀ a v, post a v → post' a v) :
    Meets acts rely pledge p post' w :=
  hp.mono (fun _ _ h => h) (fun _ _ h => h) hpost

theorem Meets.pure {a : α} {post : α → W → Prop} {w : W} (hpost : Stable rely (post a))
    (hw : post a w) : Meets acts rely pledge (pure a) post w :=
  fun _ hsteps => hpost.many hw hsteps

theorem Meets.bind {p : Program α} {f : α → Program β} {post : β → W → Prop} {w : W}
    (hp : Meets acts rely pledge p (fun a v => Meets acts rely pledge (f a) post v) w) :
    Meets acts rely pledge (p >>= f) post w := by
  change Meets acts rely pledge (p.andThen f) post w
  induction p generalizing w with
  | done a => exact hp w .refl
  | ask e next ih =>
      intro u hu answer v hacts
      obtain ⟨hown, hnext⟩ := hp u hu answer v hacts
      exact ⟨hown, ih answer hnext⟩
  | fork admission count tasks next _ ih =>
      obtain ⟨relies, pledges, posts, kept, hrelies, hpledges, hown, htasks, hkept, hstable,
        hkeeps, hrest⟩ := hp
      exact ⟨relies, pledges, posts, kept, hrelies, hpledges, hown, htasks, hkept, hstable, hkeeps,
        fun results v hv hposts => ih results (hrest results v hv hposts)⟩

/-- A request from a state whose assertion the others do not end. -/
theorem Meets.request {P : W → Prop} {e : Effect} {k : e.Answer → Program α}
    {post : α → W → Prop} {w : W} (hP : Stable rely P) (hw : P w)
    (hnext : ∀ answer u v, P u → acts e answer u v →
      pledge u v ∧ Meets acts rely pledge (k answer) post v) :
    Meets acts rely pledge (request e >>= k) post w :=
  fun u hu answer v hacts => hnext answer u v (hP.many hw hu) hacts

/-- A program whose requests all keep an assertion. -/
theorem Meets.keep {kind : Effect → Prop} {kept : W → Prop} {p : Program α} {w : W}
    (hp : Asks kind p) (hrely : Stable rely kept)
    (hacts : ∀ e answer u v, kind e → kept u → acts e answer u v → pledge u v ∧ kept v)
    (hw : kept w) : Meets acts rely pledge p (fun _ => kept) w := by
  induction p generalizing w rely pledge with
  | done a => exact fun v hv => hrely.many hw hv
  | ask e next ih =>
      intro u hu answer v hstep
      obtain ⟨hown, hv⟩ := hacts e answer u v hp.1 (hrely.many hw hu) hstep
      exact ⟨hown, ih answer (hp.2 answer) hrely hacts hv⟩
  | fork admission count tasks next ihtasks ihnext =>
      -- each task also pledges the assertion, so that the others may rely on it
      let own (u v : W) : Prop := pledge u v ∧ kept v
      let others (u v : W) : Prop := rely u v ∨ own u v
      have hothers : Stable others kept := by
        rintro u v hu (h | h)
        · exact hrely hu h
        · exact h.2
      refine ⟨fun _ => others, fun _ => own, fun _ _ => kept, kept, fun _ _ _ h => .inl h,
        fun _ _ _ _ _ h => .inr h, fun _ _ _ h => h.1, fun i => ?_, hw, hrely,
        fun _ _ _ _ h => h.2, fun results v hv _ => ihnext results (hp.2 results) hrely hacts hv⟩
      refine ihtasks i (hp.1 i) hothers ?_ hw
      intro e answer u v hkind hu hstep
      obtain ⟨hown, hv⟩ := hacts e answer u v hkind hu hstep
      exact ⟨⟨hown, hv⟩, hv⟩

/-- What the others and a program's own turns keep holds on behind the program. -/
theorem Meets.keeping {kept : W → Prop} {p : Program α} {post : α → W → Prop} {w : W}
    (hp : Meets acts rely pledge p post w) (hrely : Stable rely kept) (hpledge : Stable pledge kept)
    (hw : kept w) : Meets acts rely pledge p (fun a v => post a v ∧ kept v) w := by
  induction p generalizing w with
  | done a => exact fun v hv => ⟨hp v hv, hrely.many hw hv⟩
  | ask e next ih =>
      intro u hu answer v hstep
      obtain ⟨hown, hnext⟩ := hp u hu answer v hstep
      exact ⟨hown, ih answer hnext (hpledge (hrely.many hw hu) hown)⟩
  | fork admission count tasks next _ ih =>
      obtain ⟨relies, pledges, posts, held, hrelies, hpledges, hown, htasks, hheld, hstable,
        hkeeps, hrest⟩ := hp
      exact ⟨relies, pledges, posts, fun v => held v ∧ kept v, hrelies, hpledges, hown, htasks,
        ⟨hheld, hw⟩, hstable.and hrely,
        fun i u v hu h => ⟨hkeeps i hu.1 h, hpledge hu.2 (hown i u v h)⟩,
        fun results v hv hposts => ih results (hrest results v hv.1 hposts) hv.2⟩

/-- Every turn of a program is one of its requests. -/
theorem Meets.asking {kind : Effect → Prop} {p : Program α} {post : α → W → Prop} {w : W}
    (hasks : Asks kind p) (hp : Meets acts rely pledge p post w) :
    Meets acts rely (fun u v => pledge u v ∧ ∃ e answer, kind e ∧ acts e answer u v) p post w := by
  induction p generalizing w rely pledge with
  | done a => exact hp
  | ask e next ih =>
      intro u hu answer v hstep
      obtain ⟨hown, hnext⟩ := hp u hu answer v hstep
      exact ⟨⟨hown, e, answer, hasks.1, hstep⟩, ih answer (hasks.2 answer) hnext⟩
  | fork admission count tasks next ihtasks ihnext =>
      obtain ⟨relies, pledges, posts, held, hrelies, hpledges, hown, htasks, hheld, hstable,
        hkeeps, hrest⟩ := hp
      exact ⟨relies, fun i u v => pledges i u v ∧ ∃ e answer, kind e ∧ acts e answer u v, posts,
        held, hrelies, fun i j u v hij h => hpledges i j u v hij h.1,
        fun i u v h => ⟨hown i u v h.1, h.2⟩, fun i => ihtasks i (hasks.1 i) (htasks i), hheld,
        hstable, fun i u v hu h => hkeeps i hu h.1,
        fun results v hv hposts => ihnext results (hasks.2 results) (hrest results v hv hposts)⟩

variable {γ : Type} {admission : Admission} {xs : List γ} {task : γ → Program β} {w : W}

/-- Tasks that rely on each other's pledges. -/
theorem Meets.forEach (pledges : Fin xs.length → W → W → Prop)
    (posts : Fin xs.length → β → W → Prop) (kept : W → Prop) {post : List β → W → Prop}
    (hpledge : ∀ i u v, pledges i u v → pledge u v)
    (htasks : ∀ i, Meets acts (fun u v => rely u v ∨ ∃ j, j ≠ i ∧ pledges j u v) (pledges i)
      (task (xs.get i)) (posts i) w)
    (hkept : kept w) (hrely : Stable rely kept) (hkeeps : ∀ i, Stable (pledges i) kept)
    (hpost : ∀ results v, kept v → (∀ i, posts i (results i) v) → post (List.ofFn results) v)
    (hstable : ∀ results, Stable rely (post results)) :
    Meets acts rely pledge (forEach admission xs task) post w :=
  ⟨fun i u v => rely u v ∨ ∃ j, j ≠ i ∧ pledges j u v, pledges, posts, kept,
    fun _ _ _ h => .inl h, fun _ j _ _ hij h => .inr ⟨j, hij.symm, h⟩, hpledge, htasks, hkept,
    hrely, hkeeps,
    fun results _ hv hposts _ hsteps => (hstable _).many (hpost results _ hv hposts) hsteps⟩

/-- Tasks that are all quiet keep what quiet steps keep. -/
theorem Meets.forEach_quiet {quiet : W → W → Prop} {P : W → Prop}
    (hpledge : ∀ u v, quiet u v → pledge u v) (hrely : Stable rely P) (hquiet : Stable quiet P)
    (htasks : ∀ x ∈ xs, Meets acts (fun _ _ => True) quiet (task x) (fun _ _ => True) w)
    (hw : P w) : Meets acts rely pledge (Program.forEach admission xs task) (fun _ => P) w := by
  refine Meets.forEach (fun _ => quiet) (fun _ _ _ => True) P (fun _ => hpledge) (fun i => ?_) hw
    hrely (fun _ => hquiet) (fun _ v hv _ => hv) fun _ => hrely
  exact (htasks _ (List.getElem_mem i.isLt)).mono (fun _ _ _ => trivial) (fun _ _ h => h)
    fun _ _ h => h

/-- One task among others that are quiet, told apart by a key. -/
theorem Meets.forEach_key {κ : Type} {key : γ → κ} {x : γ} {quiet : W → W → Prop} {P : W → Prop}
    (hnodup : (xs.map key).Nodup) (hx : x ∈ xs) (hrely : ∀ u v, rely u v → quiet u v)
    (hpledge : ∀ u v, quiet u v → pledge u v)
    (hothers : ∀ y ∈ xs, key y ≠ key x →
      Meets acts (fun _ _ => True) quiet (task y) (fun _ _ => True) w)
    (hown : Meets acts quiet pledge (task x) (fun _ => P) w) (hP : Stable rely P) :
    Meets acts rely pledge (Program.forEach admission xs task) (fun _ => P) w := by
  obtain ⟨n, hn, rfl⟩ := List.getElem_of_mem hx
  have hxs : xs.Nodup := List.Nodup.of_map key hnodup
  refine Meets.forEach (fun j => if (j : Nat) = n then pledge else quiet)
    (fun j _ v => (j : Nat) = n → P v) (fun _ => True) ?_ ?_ trivial (stable_const _ _)
    (fun _ => stable_const _ _) (fun _ v _ h => h ⟨n, hn⟩ rfl) fun _ => hP
  · intro j u v h
    by_cases hj : (j : Nat) = n
    · simpa [hj] using h
    · simp only [hj, if_false] at h
      exact hpledge u v h
  · intro j
    by_cases hj : (j : Nat) = n
    · obtain rfl : j = ⟨n, hn⟩ := Fin.ext hj
      simp only [if_true]
      refine hown.mono ?_ (fun _ _ h => h) fun _ _ h _ => h
      rintro u v (h | ⟨k, hk, h⟩)
      · exact hrely u v h
      · have hother : (k : Nat) ≠ n := fun h => hk (Fin.ext h)
        simpa [hother] using h
    · have hkey : key xs[j] ≠ key xs[n] := by
        intro hsame
        have hsame : xs[j] = xs[n] :=
          List.inj_on_of_nodup_map hnodup (List.getElem_mem j.isLt) (List.getElem_mem hn) hsame
        exact hj (hxs.getElem_inj_iff.1 hsame)
      simp only [hj, if_false]
      exact (hothers _ (List.getElem_mem j.isLt) hkey).mono (fun _ _ _ => trivial)
        (fun _ _ h => h) fun _ _ _ h => absurd h id

/-- Tasks that leave each other alone: each comes to a result of its own. -/
theorem Meets.forEach_apart {relies pledges : γ → W → W → Prop} {posts : γ → β → W → Prop}
    {kept : W → Prop}
    (hapart : xs.Pairwise fun x y =>
      ∀ u v, (pledges x u v → relies y u v) ∧ (pledges y u v → relies x u v))
    (hrely : ∀ x ∈ xs, ∀ u v, rely u v → relies x u v)
    (hpledge : ∀ x ∈ xs, ∀ u v, pledges x u v → pledge u v)
    (htasks : ∀ x ∈ xs, Meets acts (relies x) (pledges x) (task x) (posts x) w)
    (hposts : ∀ x ∈ xs, ∀ b, Stable rely (posts x b)) (hkept : kept w) (hstable : Stable rely kept)
    (hkeeps : ∀ x ∈ xs, Stable (pledges x) kept) :
    Meets acts rely pledge (Program.forEach admission xs task)
      (fun results v => List.Forall₂ (fun x b => posts x b v) xs results ∧ kept v) w := by
  have hmem : ∀ i : Fin xs.length, xs[i] ∈ xs := fun i => List.getElem_mem i.isLt
  refine Meets.forEach (fun i => pledges xs[i]) (fun i => posts xs[i]) kept
    (fun i => hpledge _ (hmem i)) (fun i => ?_) hkept hstable (fun i => hkeeps _ (hmem i)) ?_ ?_
  · refine (htasks _ (hmem i)).mono ?_ (fun _ _ h => h) fun _ _ h => h
    rintro u v (h | ⟨j, hij, h⟩)
    · exact hrely _ (hmem i) u v h
    · rcases Nat.lt_or_gt_of_ne (Fin.val_ne_of_ne hij) with hlt | hlt
      · exact (List.pairwise_iff_getElem.1 hapart j i j.isLt i.isLt hlt u v).1 h
      · exact (List.pairwise_iff_getElem.1 hapart i j i.isLt j.isLt hlt u v).2 h
  · intro results v hv hresults
    refine ⟨List.forall₂_iff_get.2 ⟨by simp, fun i hi hi' => ?_⟩, hv⟩
    simpa using hresults ⟨i, hi⟩
  · rintro results u v ⟨hu, hkept⟩ hstep
    refine ⟨List.forall₂_iff_get.2 ⟨hu.length_eq, fun i hi hi' => ?_⟩, hstable hkept hstep⟩
    exact hposts _ (List.getElem_mem hi) _ ((List.forall₂_iff_get.1 hu).2 i hi hi') hstep

section Services

variable {ε : Type}

theorem Meets.serviceBind {x : Service ε α} {f : α → Service ε β} {post : Except ε β → W → Prop}
    (hx : Meets acts rely pledge x.run (fun result v => match result with
      | .ok a => Meets acts rely pledge (f a).run post v
      | .error error => Meets acts rely pledge (Pure.pure (.error error)) post v) w) :
    Meets acts rely pledge (x >>= f).run post w := by
  refine Meets.bind (hx.weaken ?_)
  intro result v h
  cases result with
  | ok a => exact h
  | error error => exact h

/-- A call to the store from a state whose assertion the others do not end. -/
theorem Meets.store [OfFailure ε] {call : StoreCall} {k : call.Reply → Service ε β}
    {P : W → Prop} {post : Except ε β → W → Prop} (hP : Stable rely P) (hw : P w)
    (hok : ∀ reply u v, P u → acts (.store call) (.ok reply) u v →
      pledge u v ∧ Meets acts rely pledge (k reply).run post v)
    (herror : ∀ failure u v, P u → acts (.store call) (.error failure) u v →
      pledge u v ∧
        Meets acts rely pledge (Pure.pure (.error (OfFailure.ofFailure failure))) post v) :
    Meets acts rely pledge (Service.store call >>= k).run post w := by
  intro u hu answer v hacts
  cases answer with
  | ok reply => exact hok reply u v (hP.many hw hu) hacts
  | error failure => exact herror failure u v (hP.many hw hu) hacts

theorem Meets.serviceRequest {e : Effect} {k : e.Answer → Service ε β} {P : W → Prop}
    {post : Except ε β → W → Prop} (hP : Stable rely P) (hw : P w)
    (hnext : ∀ answer u v, P u → acts e answer u v →
      pledge u v ∧ Meets acts rely pledge (k answer).run post v) :
    Meets acts rely pledge (Service.request e >>= k).run post w :=
  fun u hu answer v hacts => hnext answer u v (hP.many hw hu) hacts

theorem Meets.found {error : ε} {value : Option α} {k : α → Service ε β}
    {post : Except ε β → W → Prop}
    (hsome : ∀ a, value = some a → Meets acts rely pledge (k a).run post w)
    (hnone : value = none → Meets acts rely pledge (Pure.pure (.error error)) post w) :
    Meets acts rely pledge (Service.found error value >>= k).run post w := by
  cases value with
  | some a => exact hsome a rfl
  | none => exact hnone rfl

theorem Meets.liftExcept {result : Except ε α} {k : α → Service ε β} {post : Except ε β → W → Prop}
    (hok : ∀ a, result = .ok a → Meets acts rely pledge (k a).run post w)
    (herror : ∀ error, result = .error error →
      Meets acts rely pledge (Pure.pure (.error error)) post w) :
    Meets acts rely pledge (liftExcept result >>= k : Service ε β).run post w := by
  cases result with
  | ok a => exact hok a rfl
  | error error => exact herror error rfl

theorem Meets.lift {p : Program α} {k : α → Service ε β} {post : Except ε β → W → Prop}
    (hp : Meets acts rely pledge p
      (fun a v => Meets acts rely pledge (k a).run post v) w) :
    Meets acts rely pledge (ExceptT.lift p >>= k).run post w := by
  rw [Service.run_lift_bind]
  exact hp.bind

end Services

end Program

end Mailroom
