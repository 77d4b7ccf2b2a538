import Mailroom.Engine.Tick
import Mailroom.Job.Control
import Mailroom.Job.Create
import Mailroom.Proofs.Concurrency.Pledge
import Mailroom.Proofs.Store.Calls

/-!
The office: one engine and any number of operators at work on the store in memory.  Requests are
answered one at a time, and any program that is under way may make the next one; every request that
was answered goes into the history, with the tables before and after it.  Main statements: the
programs of an office keep within their terms as long as they rely on each other's pledges only.
-/

namespace Mailroom

open Relation (ReflTransGen)

inductive OperatorCall where
  | create (request : JobRequest) (registry : Registry) (standard : StrategyKind)
  | pause (job : Uuid)
  | resume (job : Uuid)
  | cancel (job : Uuid)
  | retry (job : Uuid) (action : RetryAction)
deriving DecidableEq

def OperatorCall.program : OperatorCall → Program (Except JobError Job)
  | create request registry standard => (request.create registry standard).run
  | pause job => (JobControl.pause job).run
  | resume job => (JobControl.resume job).run
  | cancel job => (JobControl.cancel job).run
  | retry job action => (JobControl.retry job action).run

/-- Who makes a request: the engine in one of its ticks, or the operator whose call came after so
many others. -/
inductive Actor where
  | engine
  | operator (place : Nat) (call : OperatorCall)
deriving DecidableEq

/-- A request that was answered, with the tables before and after it. -/
structure Event where
  actor : Actor
  effect : Effect
  answer : effect.Answer
  before : Tables
  after : Tables

/-- What the programs work on: the tables, and what the engine keeps in mind; and all that has
happened, the latest first. -/
structure Scene where
  tables : Tables
  accepted : List (Uuid × String) := []
  history : List Event := []

namespace Scene

/-- How the tables and the engine's mind may look when a request has been answered.  A call to the
store is served at some instant, or fails and changes nothing.  A call in the background is served
or lost.  What the engine keeps in mind is always at hand.  All other requests have any answer. -/
def Reaction (s : Scene) : (e : Effect) → e.Answer → Tables → List (Uuid × String) → Prop
  | .store call, answer, tables, accepted =>
      ((∃ now, answer = .ok (s.tables.serve now call).1 ∧ tables = (s.tables.serve now call).2) ∨
        (∃ failure, answer = .error failure) ∧ tables = s.tables) ∧ accepted = s.accepted
  | .storeLater call, _, tables, accepted =>
      ((∃ now, tables = (s.tables.serve now call).2) ∨ tables = s.tables) ∧ accepted = s.accepted
  | .accepted, answer, tables, accepted =>
      answer = s.accepted ∧ tables = s.tables ∧ accepted = s.accepted
  | .keepAccepted item remoteId, _, tables, accepted =>
      tables = s.tables ∧ accepted = Engine.keep item remoteId s.accepted
  | .dropAccepted item, _, tables, accepted =>
      tables = s.tables ∧ accepted = Engine.forget item s.accepted
  | _, _, tables, accepted => tables = s.tables ∧ accepted = s.accepted

end Scene

/-- The answers that the surroundings may give. -/
abbrev Surroundings := (e : Effect) → e.Answer → Prop

namespace Surroundings

/-- Whatever may go wrong does. -/
def harsh : Surroundings := fun _ _ => True

/-- Only certain calls to the store may fail. -/
def failing (mayFail : StoreCall → Prop) : Surroundings
  | .store call, .error _ => mayFail call
  | _, _ => True

/-- The store fails at nothing but the record of what a server took. -/
def mild : Surroundings := failing fun call => ∃ id remoteId, call = .queueItem id remoteId

/-- The store never fails. -/
def reliable : Surroundings := failing fun _ => False

def acts (around : Surroundings) (actor : Actor) : Acts Scene := fun e answer s s' =>
  around e answer ∧ s.Reaction e answer s'.tables s'.accepted ∧
    s'.history = ⟨actor, e, answer, s.tables, s'.tables⟩ :: s.history

variable {around : Surroundings} {actor : Actor} {u v : Scene}

theorem acts_ok {call : StoreCall} {reply : call.Reply}
    (hacts : around.acts actor (.store call) (.ok reply) u v) :
    ∃ now, reply = (u.tables.serve now call).1 ∧ v.tables = (u.tables.serve now call).2 := by
  rcases hacts with ⟨-, ⟨hserved | ⟨⟨failure, hfailed⟩, -⟩, -⟩, -⟩
  · rcases hserved with ⟨now, hreply, htables⟩
    exact ⟨now, Except.ok.inj hreply, htables⟩
  · cases hfailed

theorem acts_error {call : StoreCall} {failure : Failure}
    (hacts : around.acts actor (.store call) (.error failure) u v) : v.tables = u.tables := by
  rcases hacts with ⟨-, ⟨⟨now, hreply, -⟩ | ⟨-, htables⟩, -⟩, -⟩
  · cases hreply
  · exact htables

/-- Only calls to the store change the tables. -/
theorem acts_tables {e : Effect} {answer : e.Answer} (hacts : around.acts actor e answer u v) :
    v.tables = u.tables ∨
      ∃ call now, (e = .store call ∨ e = .storeLater call) ∧
        v.tables = (u.tables.serve now call).2 := by
  rcases hacts with ⟨-, hreaction, -⟩
  cases e with
  | store call =>
      rcases hreaction with ⟨⟨now, -, htables⟩ | ⟨-, htables⟩, -⟩
      · exact .inr ⟨call, now, .inl rfl, htables⟩
      · exact .inl htables
  | storeLater call =>
      rcases hreaction with ⟨⟨now, htables⟩ | htables, -⟩
      · exact .inr ⟨call, now, .inr rfl, htables⟩
      · exact .inl htables
  | accepted => exact .inl hreaction.2.1
  | _ => exact .inl hreaction.1

theorem acts_history {e : Effect} {answer : e.Answer} (hacts : around.acts actor e answer u v) :
    v.history = ⟨actor, e, answer, u.tables, v.tables⟩ :: u.history :=
  hacts.2.2

theorem acts_isWellFormed {e : Effect} {answer : e.Answer} (hu : u.tables.IsWellFormed)
    (hacts : around.acts actor e answer u v) : v.tables.IsWellFormed := by
  rcases acts_tables hacts with htables | ⟨call, now, -, htables⟩
  · rw [htables]
    exact hu
  · rw [htables]
    exact hu.serve call

theorem acts_recipients {e : Effect} {answer : e.Answer}
    (hacts : around.acts actor e answer u v) : v.tables.recipients = u.tables.recipients := by
  rcases acts_tables hacts with htables | ⟨call, now, -, htables⟩
  · rw [htables]
  · rw [htables, Tables.recipients_serve]

end Surroundings

namespace History

/-- The events of a history, the latest first, lead from some tables to others: each of them begins
with the tables that the one before it left. -/
inductive Leads (t : Tables) : List Event → Tables → Prop where
  | start : Leads t [] t
  | next {v : Event} {earlier : List Event} (h : Leads t earlier v.before) :
      Leads t (v :: earlier) v.after

theorem Leads.acts {t : Tables} {around : Surroundings} {actor : Actor} {e : Effect}
    {answer : e.Answer} {u v : Scene} (h : Leads t u.history u.tables)
    (hacts : around.acts actor e answer u v) : Leads t v.history v.tables := by
  rw [Surroundings.acts_history hacts]
  exact .next h

end History

/-- A program runs by itself, from one state to another, and comes to a result. -/
inductive Program.Completes {W α : Type} (acts : Acts W) : Program α → W → α → W → Prop where
  | ends {p : Program α} {a : α} {w : W} (hends : p.Ends a) : Completes acts p w a w
  | turn {p q : Program α} {a : α} {w v u : W} {e : Effect} {answer : e.Answer}
      (hturn : p.Turn e answer q) (hacts : acts e answer w v) (hrest : Completes acts q v a u) :
      Completes acts p w a u

theorem Program.Meets.completes {W α : Type} {acts : Acts W} {rely pledge : W → W → Prop}
    {p : Program α} {post : α → W → Prop} {w v : W} {a : α}
    (hp : Meets acts rely pledge p post w) (hrun : Completes acts p w a v) : post a v := by
  induction hrun with
  | ends hends => exact hp.result hends
  | turn hturn hacts hrest ih => exact ih (hp.turn hturn hacts).2

/-- The scenes between operations, when ticks of an engine and operators' calls follow one another
from some tables on, each begun when the one before it is over. -/
inductive Sequential (e : Engine) (around : Surroundings) (t : Tables) : Scene → Prop where
  | start : Sequential e around t ⟨t, [], []⟩
  | tick {s s' : Scene} {report : TickReport} (hs : Sequential e around t s)
      (hrun : e.tick.Completes (around.acts .engine) s report s') : Sequential e around t s'
  | call {s s' : Scene} {result : Except JobError Job} (place : Nat) (call : OperatorCall)
      (hs : Sequential e around t s)
      (hrun : call.program.Completes (around.acts (.operator place call)) s result s') :
      Sequential e around t s'

/-- An engine, in one of its ticks or between them, and the operators' calls that were begun. -/
structure Office where
  scene : Scene
  tick : Program TickReport
  calls : List (OperatorCall × Program (Except JobError Job))

namespace Office

def IsBetweenTicks (o : Office) : Prop := ∃ report, o.tick.Ends report

/-- Nothing has happened yet. -/
def opening (t : Tables) : Office := ⟨⟨t, [], []⟩, .done {}, []⟩

theorem isBetweenTicks_opening (t : Tables) : (opening t).IsBetweenTicks := by
  refine ⟨{}, ?_⟩
  rw [opening]
  exact .done _

/-- A tick begins when the one before it is over, an operator's call at any time, and a program that
is under way takes a turn. -/
inductive Step (e : Engine) (around : Surroundings) : Office → Office → Prop where
  | beginTick {o : Office} (hidle : o.IsBetweenTicks) : Step e around o { o with tick := e.tick }
  | beginCall {o : Office} (call : OperatorCall) :
      Step e around o { o with calls := o.calls ++ [(call, call.program)] }
  | tick {o : Office} {scene : Scene} {effect : Effect} {answer : effect.Answer}
      {left : Program TickReport} (hturn : o.tick.Turn effect answer left)
      (hacts : around.acts .engine effect answer o.scene scene) :
      Step e around o { o with scene, tick := left }
  | call {o : Office} {scene : Scene} {effect : Effect} {answer : effect.Answer} {place : Nat}
      {call : OperatorCall} {p left : Program (Except JobError Job)}
      (hcall : o.calls[place]? = some (call, p)) (hturn : p.Turn effect answer left)
      (hacts : around.acts (.operator place call) effect answer o.scene scene) :
      Step e around o { o with scene, calls := o.calls.set place (call, left) }

/-- What an office that began with some tables may come to. -/
def Reachable (e : Engine) (around : Surroundings) (t : Tables) : Office → Prop :=
  ReflTransGen (Step e around) (opening t)

variable {e : Engine} {around : Surroundings} {t : Tables}

theorem Reachable.step {o o' : Office} (ho : Reachable e around t o) (hstep : Step e around o o') :
    Reachable e around t o' :=
  ReflTransGen.tail ho hstep

/-- A step asks for nothing and leaves the scene as it is, or it is a turn of the engine or of a
call. -/
theorem Step.scene_eq_or_acts {o o' : Office} (hstep : Step e around o o') :
    o'.scene = o.scene ∨
      ∃ actor effect answer, around.acts actor effect answer o.scene o'.scene := by
  cases hstep with
  | beginTick hidle => exact .inl rfl
  | beginCall call => exact .inl rfl
  | tick hturn hacts => exact .inr ⟨_, _, _, hacts⟩
  | call hcall hturn hacts => exact .inr ⟨_, _, _, hacts⟩

/-- Nothing changes the tables but what is in the history. -/
theorem Reachable.leads {o : Office} (ho : Reachable e around t o) :
    History.Leads t o.scene.history o.scene.tables := by
  induction ho with
  | refl => exact .start
  | tail _ hstep ih =>
      rcases hstep.scene_eq_or_acts with hscene | ⟨actor, effect, answer, hacts⟩
      · rw [hscene]
        exact ih
      · exact ih.acts hacts

/-- What is in the history was done by an office that had come so far. -/
theorem Reachable.past {o : Office} {later earlier : List Event} {v : Event}
    (ho : Reachable e around t o) (hsplit : o.scene.history = later ++ v :: earlier) :
    ∃ o₁ o₂, Reachable e around t o₁ ∧ Reachable e around t o₂ ∧
      around.acts v.actor v.effect v.answer o₁.scene o₂.scene ∧
      o₁.scene.history = earlier ∧ o₁.scene.tables = v.before ∧
      o₂.scene.history = v :: earlier ∧ o₂.scene.tables = v.after := by
  induction ho generalizing later with
  | refl => simp [opening] at hsplit
  | @tail o o' ho hstep ih =>
      rcases hstep.scene_eq_or_acts with hscene | ⟨actor, effect, answer, hacts⟩
      · exact ih (hscene ▸ hsplit)
      · have hhistory := Surroundings.acts_history hacts
        rw [hsplit] at hhistory
        cases later with
        | nil =>
            obtain ⟨rfl, hearlier⟩ := List.cons.inj hhistory
            exact ⟨o, o', ho, ho.tail hstep, hacts, hearlier.symm, rfl, hsplit, rfl⟩
        | cons w later => exact ih (List.cons.inj hhistory).2.symm

theorem Reachable.exists_past {o : Office} {later earlier : List Event}
    (ho : Reachable e around t o) (hsplit : o.scene.history = later ++ earlier) :
    ∃ o', Reachable e around t o' ∧ o'.scene.history = earlier := by
  cases earlier with
  | nil => exact ⟨opening t, .refl, rfl⟩
  | cons v earlier =>
      obtain ⟨_, o₂, _, ho₂, _, _, _, hhistory, _⟩ := ho.past hsplit
      exact ⟨o₂, ho₂, hhistory⟩

theorem Reachable.isWellFormed {o : Office} (ht : t.IsWellFormed)
    (ho : Reachable e around t o) : o.scene.tables.IsWellFormed := by
  induction ho with
  | refl => exact ht
  | tail _ hstep ih =>
      rcases hstep.scene_eq_or_acts with hscene | ⟨actor, effect, answer, hacts⟩
      · rw [hscene]
        exact ih
      · exact Surroundings.acts_isWellFormed ih hacts

section

variable {facts inv tidy : Scene → Prop} {quiet : Scene → Scene → Prop}
  {kind : OperatorCall → Effect → Prop}

/-- What is known of a step between scenes about which some facts are known. -/
def Known (facts : Scene → Prop) (acts : Acts Scene) : Acts Scene := fun e answer u v =>
  facts u ∧ facts v ∧ acts e answer u v

/-- The terms that hold of an office all along: the tick under way ends in order, whatever calls do
meanwhile, and every call makes requests of its own kind only. -/
structure Orderly (around : Surroundings) (facts inv tidy : Scene → Prop)
    (quiet : Scene → Scene → Prop) (kind : OperatorCall → Effect → Prop) (o : Office) : Prop where
  holds : inv o.scene
  tick : o.tick.Meets (Known facts (around.acts .engine)) quiet (fun u v => inv u → inv v)
    (fun _ => tidy) o.scene
  calls : ∀ c ∈ o.calls, c.2.Asks (kind c.1)

/-- If ticks keep an invariant and end in order while calls do nothing but quiet steps, this holds
of all that an office comes to. -/
theorem Reachable.orderly
    (hstart : inv (opening t).scene ∧ tidy (opening t).scene)
    (hcalls : ∀ call : OperatorCall, call.program.Asks (kind call))
    (hback : ∀ o o', Reachable e around t o → Step e around o o' → facts o'.scene → facts o.scene)
    (hquiet : ∀ place call effect answer u v, kind call effect → facts u → facts v →
      around.acts (.operator place call) effect answer u v → quiet u v)
    (hinv : Stable quiet inv) (htidy : Stable quiet tidy)
    (htick : ∀ s, facts s → tidy s → e.tick.Meets (Known facts (around.acts .engine)) quiet
      (fun u v => inv u → inv v) (fun _ => tidy) s)
    {o : Office} (ho : Reachable e around t o) (hfacts : facts o.scene) :
    Orderly around facts inv tidy quiet kind o := by
  induction ho with
  | refl => exact ⟨hstart.1, fun _ hsteps => htidy.many hstart.2 hsteps, by simp [opening]⟩
  | @tail o o' ho hstep ih =>
      have hbefore := hback o o' ho hstep hfacts
      obtain ⟨hholds, hmeets, hasks⟩ := ih hbefore
      cases hstep with
      | beginTick hidle =>
          rcases hidle with ⟨report, hends⟩
          exact ⟨hholds, htick _ hbefore (hmeets.result hends), hasks⟩
      | beginCall call =>
          refine ⟨hholds, hmeets, fun c hc => ?_⟩
          rcases List.mem_append.1 hc with hc | hc
          · exact hasks c hc
          · obtain rfl := List.mem_singleton.1 hc
            exact hcalls call
      | tick hturn hacts =>
          obtain ⟨hkeeps, hleft⟩ := hmeets.turn hturn ⟨hbefore, hfacts, hacts⟩
          exact ⟨hkeeps hholds, hleft, hasks⟩
      | @call scene effect answer place call p left hcall hturn hacts =>
          obtain ⟨hkind, hleft⟩ := (hasks _ (List.mem_of_getElem? hcall)).turn hturn
          have hstill := hquiet place call effect answer _ _ hkind hbefore hfacts hacts
          refine ⟨hinv hholds hstill, hmeets.of_rely hstill, fun c hc => ?_⟩
          rcases List.mem_or_eq_of_mem_set hc with hc | rfl
          · exact hasks c hc
          · exact hleft

end

end Office

end Mailroom
