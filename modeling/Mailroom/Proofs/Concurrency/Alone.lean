import Mathlib.Data.Fin.Tuple.Basic
import Mailroom.Proofs.Concurrency.Office

/-!
Programs on their own.  A program that nobody interrupts, and whose tasks wait for each other, can
be run like a function.  Main statements: every program comes to an end in this way, and an office
may come to what the function computes.
-/

namespace Mailroom

open Relation (ReflTransGen)

namespace Program

variable {W α β : Type} {acts : Acts W}

def inTurn : (count : Nat) → (Fin count → W → β × W) → W → (Fin count → β) × W
  | 0, _, w => (fun i => i.elim0, w)
  | count + 1, run, w =>
      let first := run 0 w
      let rest := inTurn count (fun i => run i.succ) first.2
      (Fin.cons first.1 rest.1, rest.2)

/-- Run a program by itself, given how its requests are answered. -/
def alone (respond : (e : Effect) → W → e.Answer × W) : {α : Type} → Program α → W → α × W
  | _, done a, w => (a, w)
  | _, ask e next, w =>
      let answered := respond e w
      alone respond (next answered.1) answered.2
  | _, fork _ count tasks next, w =>
      let results := inTurn count (fun i => alone respond (tasks i)) w
      alone respond (next results.1) results.2

/-- One task of a fork may be run to its end before the others go on. -/
theorem Completes.task {admission : Admission} {count : Nat} {tasks : Fin count → Program β}
    {next : (Fin count → β) → Program α} {i : Fin count} {b : β} {a : α} {w v u : W}
    (hrun : (tasks i).Completes acts w b v)
    (hrest : ∀ left : Program β, left.Ends b →
      (fork admission count (Function.update tasks i left) next).Completes acts v a u) :
    (fork admission count tasks next).Completes acts w a u := by
  generalize htask : tasks i = p at hrun
  induction hrun generalizing tasks with
  | ends hends =>
      have hsame := hrest _ (htask ▸ hends)
      rwa [Function.update_eq_self] at hsame
  | turn hturn hacts hrun ih =>
      subst htask
      refine .turn (.task i hturn) hacts (ih (fun left hleft => ?_) (by simp))
      rw [Function.update_idem]
      exact hrest left hleft

/-- What follows a fork goes on when all of its tasks have ended. -/
theorem Completes.join {admission : Admission} {count : Nat} {tasks : Fin count → Program β}
    {next : (Fin count → β) → Program α} {results : Fin count → β} {a : α} {w u : W}
    (hrun : (next results).Completes acts w a u) (htasks : ∀ i, (tasks i).Ends (results i)) :
    (fork admission count tasks next).Completes acts w a u := by
  cases hrun with
  | ends hends => exact .ends (.join htasks hends)
  | turn hturn hacts hrest => exact .turn (.join htasks hturn) hacts hrest

/-- Tasks of a fork may be run to their ends one after another, and the others are left as they
are. -/
theorem Completes.inTurn {admission : Admission} {count n : Nat} {tasks : Fin count → Program β}
    {next : (Fin count → β) → Program α} {place : Fin n → Fin count} {a : α} {w u : W}
    (run : Fin n → W → β × W) (hplace : Function.Injective place)
    (hrun : ∀ i w, (tasks (place i)).Completes acts w (run i w).1 (run i w).2)
    (hrest : ∀ left : Fin count → Program β,
      (∀ i, (left (place i)).Ends ((Program.inTurn n run w).1 i)) →
      (∀ j, (∀ i, j ≠ place i) → left j = tasks j) →
      (fork admission count left next).Completes acts (Program.inTurn n run w).2 a u) :
    (fork admission count tasks next).Completes acts w a u := by
  induction n generalizing tasks w with
  | zero => exact hrest tasks (fun i => i.elim0) fun _ _ => rfl
  | succ n ih =>
      have hne : ∀ i : Fin n, place i.succ ≠ place 0 :=
        fun i heq => Fin.succ_ne_zero i (hplace heq)
      apply (hrun 0 w).task
      intro first hfirst
      refine ih (fun i => run i.succ) (hplace.comp (Fin.succ_injective n)) (fun i w => ?_) ?_
      · rw [Function.comp_apply, Function.update_of_ne (hne i)]
        exact hrun i.succ w
      · intro left hleft hothers
        refine hrest left (fun i => ?_) fun j hj => ?_
        · cases i using Fin.cases with
          | zero =>
              rw [hothers _ fun i => (hne i).symm, Function.update_self]
              exact hfirst
          | succ i => exact hleft i
        · rw [hothers j fun i => hj i.succ, Function.update_of_ne (hj 0)]

/-- Every program comes to an end when it is run by itself. -/
theorem completes_alone {respond : (e : Effect) → W → e.Answer × W}
    (hrespond : ∀ e w, acts e (respond e w).1 w (respond e w).2) (p : Program α) (w : W) :
    p.Completes acts w (p.alone respond w).1 (p.alone respond w).2 := by
  induction p generalizing w with
  | done a => exact .ends (.done a)
  | ask e next ih => exact .turn (.ask _) (hrespond e w) (ih _ _)
  | fork admission count tasks next ihtasks ihnext =>
      apply Completes.inTurn _ Function.injective_id (fun i w => ihtasks i w)
      intro left hleft _
      exact (ihnext _ _).join hleft

end Program

/-- How requests are answered: what servers answer, which calls to the store fail, and at which
instant all of it happens. -/
structure Circumstances where
  answer : (server : String) → (call : MtaCall) → call.Answer
  failure? : StoreCall → Option Failure
  now : Timestamp

namespace Circumstances

/-- The answer to a request, and the tables and the engine's mind after it. -/
def reaction (c : Circumstances) (s : Scene) :
    (e : Effect) → e.Answer × Tables × List (Uuid × String)
  | .store call =>
      match c.failure? call with
      | some failure => (.error failure, s.tables, s.accepted)
      | none =>
          let (reply, tables) := s.tables.serve c.now call
          (.ok reply, tables, s.accepted)
  | .storeLater call => ((), (s.tables.serve c.now call).2, s.accepted)
  | .mta server call => (c.answer server call, s.tables, s.accepted)
  | .ping => (.ok (), s.tables, s.accepted)
  | .now => (c.now, s.tables, s.accepted)
  | .sleep _ => ((), s.tables, s.accepted)
  | .choose _ _ _ => (none, s.tables, s.accepted)
  | .allow _ _ _ => (true, s.tables, s.accepted)
  | .remaining _ _ _ => (⟨none, none⟩, s.tables, s.accepted)
  | .accepted => (s.accepted, s.tables, s.accepted)
  | .keepAccepted item remoteId => ((), s.tables, Engine.keep item remoteId s.accepted)
  | .dropAccepted item => ((), s.tables, Engine.forget item s.accepted)
  | .stopping => (false, s.tables, s.accepted)

/-- What a request of an actor makes of a scene. -/
def respond (c : Circumstances) (actor : Actor) (e : Effect) (s : Scene) : e.Answer × Scene :=
  let (answer, tables, accepted) := c.reaction s e
  (answer, ⟨tables, accepted, ⟨actor, e, answer, s.tables, tables⟩ :: s.history⟩)

variable {c : Circumstances} {around : Surroundings} {actor : Actor}

theorem acts_respond (haround : ∀ s e, around e (c.reaction s e).1) (e : Effect) (s : Scene) :
    around.acts actor e (c.respond actor e s).1 s (c.respond actor e s).2 := by
  refine ⟨haround s e, ?_, rfl⟩
  cases e with
  | store call =>
      simp only [respond, reaction]
      split
      · exact ⟨.inr ⟨⟨_, rfl⟩, rfl⟩, rfl⟩
      · exact ⟨.inl ⟨c.now, rfl, rfl⟩, rfl⟩
  | storeLater call => exact ⟨.inl ⟨c.now, rfl⟩, rfl⟩
  | accepted => exact ⟨rfl, rfl, rfl⟩
  | _ => exact ⟨rfl, rfl⟩

theorem around_mild
    (hfailure : ∀ call, (c.failure? call).isSome → ∃ id remoteId, call = .queueItem id remoteId)
    (s : Scene) (e : Effect) : Surroundings.mild e (c.reaction s e).1 := by
  cases e with
  | store call =>
      simp only [reaction]
      split
      · rename_i hfails
        exact hfailure call (by rw [hfails]; rfl)
      · trivial
  | _ => trivial

theorem around_reliable (hfailure : ∀ call, c.failure? call = none) (s : Scene) (e : Effect) :
    Surroundings.reliable e (c.reaction s e).1 := by
  cases e with
  | store call =>
      simp only [reaction, hfailure]
      trivial
  | _ => trivial

theorem completes (haround : ∀ s e, around e (c.reaction s e).1) (actor : Actor) {α : Type}
    (p : Program α) (s : Scene) :
    p.Completes (around.acts actor) s (p.alone (c.respond actor) s).1
      (p.alone (c.respond actor) s).2 :=
  p.completes_alone (acts_respond haround) s

end Circumstances

namespace Office

variable {e : Engine} {around : Surroundings} {t : Tables} {o : Office} {s s' : Scene}

/-- A tick that is under way may be run to its end. -/
theorem Reachable.tick_of_completes {tick : Program TickReport} {report : TickReport}
    {calls : List (OperatorCall × Program (Except JobError Job))}
    (hrun : tick.Completes (around.acts .engine) s report s')
    (ho : Reachable e around t ⟨s, tick, calls⟩) :
    ∃ left, left.Ends report ∧ Reachable e around t ⟨s', left, calls⟩ := by
  induction hrun with
  | ends hends => exact ⟨_, hends, ho⟩
  | turn hturn hacts _ ih => exact ih (ho.step (.tick hturn hacts))

/-- The operators' call that was begun last may be run to its end. -/
theorem Reachable.call_of_completes {tick : Program TickReport} {call : OperatorCall}
    {calls : List (OperatorCall × Program (Except JobError Job))}
    {p : Program (Except JobError Job)} {result : Except JobError Job}
    (hrun : p.Completes (around.acts (.operator calls.length call)) s result s')
    (ho : Reachable e around t ⟨s, tick, calls ++ [(call, p)]⟩) :
    ∃ left, Reachable e around t ⟨s', tick, calls ++ [(call, left)]⟩ := by
  induction hrun with
  | ends hends => exact ⟨_, ho⟩
  | @turn p _ _ _ _ _ _ _ hturn hacts _ ih =>
      have hlast : (calls ++ [(call, p)])[calls.length]? = some (call, p) :=
        List.getElem?_concat_length
      have hnext := ho.step (.call hlast hturn hacts)
      rw [List.set_append_right _ _ (Nat.le_refl _), Nat.sub_self, List.set_cons_zero] at hnext
      exact ih hnext

/-- Between two ticks there may be another one. -/
theorem Reachable.tick_alone {c : Circumstances} (haround : ∀ s e, around e (c.reaction s e).1)
    (ho : Reachable e around t o) (hidle : o.IsBetweenTicks) :
    ∃ o', Reachable e around t o' ∧ o'.IsBetweenTicks ∧ o'.calls = o.calls ∧
      o'.scene = (e.tick.alone (c.respond .engine) o.scene).2 := by
  have hrun := Circumstances.completes haround .engine e.tick o.scene
  obtain ⟨left, hends, hreachable⟩ := (ho.step (.beginTick hidle)).tick_of_completes hrun
  exact ⟨_, hreachable, ⟨_, hends⟩, rfl, rfl⟩

/-- At any time there may be another operators' call. -/
theorem Reachable.call_alone {c : Circumstances} (haround : ∀ s e, around e (c.reaction s e).1)
    (call : OperatorCall) (ho : Reachable e around t o) :
    ∃ o', Reachable e around t o' ∧ o'.tick = o.tick ∧
      o'.calls.length = o.calls.length + 1 ∧
      o'.scene = (call.program.alone (c.respond (.operator o.calls.length call)) o.scene).2 := by
  have hrun := Circumstances.completes haround (.operator o.calls.length call) call.program o.scene
  obtain ⟨left, hreachable⟩ := (ho.step (.beginCall call)).call_of_completes hrun
  exact ⟨_, hreachable, rfl, by simp, rfl⟩

end Office

namespace Sequential

variable {e : Engine} {around : Surroundings} {t : Tables} {s : Scene} {c : Circumstances}

theorem tick_alone (haround : ∀ s e, around e (c.reaction s e).1) (hs : Sequential e around t s) :
    Sequential e around t (e.tick.alone (c.respond .engine) s).2 :=
  hs.tick (Circumstances.completes haround .engine e.tick s)

theorem call_alone (haround : ∀ s e, around e (c.reaction s e).1) (place : Nat)
    (call : OperatorCall) (hs : Sequential e around t s) :
    Sequential e around t (call.program.alone (c.respond (.operator place call)) s).2 :=
  hs.call place call (Circumstances.completes haround (.operator place call) call.program s)

end Sequential

namespace Rehearsal

def campaign : Campaign where
  id := ⟨1⟩
  name := "news"
  sender := "news@here.example"
  replyTo := none
  templateId := none
  subject := some "News"
  html := none
  text := some "Hello"
  values := .null
  listId := ⟨2⟩
  createdAt := ⟨0, 0⟩
  updatedAt := ⟨0, 0⟩

def recipient : Recipient := ⟨⟨3⟩, campaign.listId, "reader@there.example", none, .null, ⟨0, 0⟩⟩

def tables : Tables := { campaigns := [campaign], recipients := [recipient] }

def engine : Engine := ⟨⟨[⟨"north", "http://north.example", 1⟩]⟩, {}⟩

/-- The campaign is to be sent through the only server. -/
def call : OperatorCall :=
  .create ⟨campaign.id, ["north"], none, none, none⟩ engine.registry .roundRobin

/-- The job is given out first. -/
def job : Uuid := .issued 0

/-- The only item, which is given out after its job. -/
def item : Uuid := .issued 1

/-- The server takes every message and says one word about it. -/
def answer (word : String) (_ : String) : (call : MtaCall) → call.Answer
  | .submit _ => .ok "m-1"
  | .status _ => .ok ⟨word, none⟩
  | .health => .ok ()
  | .push _ => .ok ()
  | .remove _ => .ok ()

/-- Nothing fails. -/
def fair (word : String) : Circumstances := ⟨answer word, fun _ => none, ⟨0, 0⟩⟩

/-- Nothing fails, but the server takes no message. -/
def refusing : Circumstances where
  answer
    | _, .submit _ => .error (.status 550 "no")
    | server, call => answer "waiting" server call
  failure? _ := none
  now := ⟨0, 0⟩

/-- What the server takes cannot be recorded. -/
def forgetful : Circumstances where
  answer := answer "waiting"
  failure?
    | .queueItem _ _ => some (.database "down")
    | _ => none
  now := ⟨0, 0⟩

def created : Scene :=
  (call.program.alone ((fair "waiting").respond (.operator 0 call)) ⟨tables, [], []⟩).2

/-- Ticks in some circumstances, the latest first. -/
def after : List Circumstances → Scene
  | [] => created
  | c :: cs => (engine.tick.alone (c.respond .engine) (after cs)).2

theorem reliable_refusing (s : Scene) (e : Effect) :
    Surroundings.reliable e (refusing.reaction s e).1 :=
  Circumstances.around_reliable (fun _ => rfl) s e

theorem isWellFormed : tables.IsWellFormed := Tables.isWellFormed_of_empty rfl rfl

theorem reliable_fair (word : String) (s : Scene) (e : Effect) :
    Surroundings.reliable e ((fair word).reaction s e).1 :=
  Circumstances.around_reliable (fun _ => rfl) s e

/-- The rehearsal may take place in any surroundings that give its answers. -/
theorem reachable_among (around : Surroundings) (cs : List Circumstances)
    (hcs : ∀ c ∈ fair "waiting" :: cs, ∀ s e, around e (c.reaction s e).1) :
    ∃ o, Office.Reachable engine around tables o ∧ o.IsBetweenTicks ∧ o.scene = after cs := by
  induction cs with
  | nil =>
      obtain ⟨o, ho, htick, -, hscene⟩ :=
        Office.Reachable.call_alone (hcs (fair "waiting") List.mem_cons_self) call
          (.refl (a := Office.opening tables))
      refine ⟨o, ho, ?_, hscene⟩
      rw [Office.IsBetweenTicks, htick]
      exact Office.isBetweenTicks_opening tables
  | cons c cs ih =>
      obtain ⟨hwaiting, hc, hrest⟩ : _ ∧ _ ∧ _ := by simpa only [List.forall_mem_cons] using hcs
      obtain ⟨o, ho, hidle, hscene⟩ := ih (List.forall_mem_cons.2 ⟨hwaiting, hrest⟩)
      obtain ⟨o', ho', hidle', -, hscene'⟩ := ho.tick_alone hc hidle
      exact ⟨o', ho', hidle', by rw [hscene', hscene, after]⟩

theorem reachable (cs : List Circumstances) :
    ∃ o, Office.Reachable engine .harsh tables o ∧ o.IsBetweenTicks ∧ o.scene = after cs :=
  reachable_among .harsh cs fun _ _ _ _ => trivial

theorem sequential (cs : List Circumstances)
    (hcs : ∀ c ∈ cs, c = forgetful ∨ ∃ word, c = fair word) :
    Sequential engine .mild tables (after cs) := by
  have hfair : ∀ word s e, Surroundings.mild e ((fair word).reaction s e).1 := by
    intro word
    apply Circumstances.around_mild
    intro call hfails
    simp [fair] at hfails
  have hforgetful : ∀ s e, Surroundings.mild e (forgetful.reaction s e).1 := by
    apply Circumstances.around_mild
    intro call hfails
    cases call with
    | queueItem id remoteId => exact ⟨id, remoteId, rfl⟩
    | _ => simp [forgetful] at hfails
  induction cs with
  | nil => exact Sequential.start.call_alone (hfair "waiting") 0 call
  | cons c cs ih =>
      have hbefore := ih fun other hother => hcs other (List.mem_cons_of_mem c hother)
      rcases hcs c List.mem_cons_self with rfl | ⟨word, rfl⟩
      · exact hbefore.tick_alone hforgetful
      · exact hbefore.tick_alone (hfair word)

end Rehearsal

end Mailroom
