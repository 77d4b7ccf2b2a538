import Mailroom.Bench.World

/-!
Strands: programs in the course of being run on the bench.  A strand runs until it has to wait: for
the time of a request, for a permit to begin a task, or for its tasks to end.  When what it waits
for has come, it is due for another turn.
-/

namespace Mailroom.Bench

/-- A program in the course of being run. -/
inductive Strand : Type → Type 1 where
  | ended {α : Type} (a : α) : Strand α
  | idle {α : Type} (p : Program α) : Strand α
  | waiting {α : Type} (e : Effect) (next : e.Answer → Program α) : Strand α
  | split {α β : Type} (admission : Admission) (count : Nat) (branches : Fin count → Strand β)
      (begun left : Nat) (next : (Fin count → β) → Program α) : Strand α

namespace World

def call (w : World) (root : Root) (path : List Nat) : World :=
  { w with due := w.due ++ [.branch root path] }

/-- A strand is due for a turn after some time. -/
def callAfter (w : World) (delay : Nat) (turn : Turn) : World :=
  { w with timers := w.timers ++ [(w.clock + delay, turn)] }

/-- Begin the tasks of a fork from `first` on, `count` of them at most, while there are permits; a
strand that has to wait for one stands in line.  The number of tasks begun comes back. -/
def admitTasks (w : World) (root : Root) (path : List Nat) : (count first : Nat) → Nat × World
  | 0, first => (first, w)
  | count + 1, first =>
      if w.permits = 0 then (first, { w with waiting := w.waiting ++ [(root, path)] })
      else ({ w with permits := w.permits - 1 }.call root (path ++ [first])).admitTasks root path
        count (first + 1)

def callAll (w : World) (root : Root) (path : List Nat) (count : Nat) : World :=
  { w with due := w.due ++ (List.range count).map fun i => .branch root (path ++ [i]) }

/-- Give a permit back; whoever stands first in line gets it. -/
def release (w : World) : World :=
  match w.waiting with
  | [] => { w with permits := w.permits + 1 }
  | (root, path) :: rest => { w with waiting := rest }.call root path

/-- What is to be told when a branch has had its turn: a branch that is over gives its permit back,
and the last one makes the whole strand due. -/
def settle (w : World) (admission : Admission) (root : Root) (path : List Nat)
    (isOver isLast : Bool) : World :=
  if isOver then
    let w := match admission with
      | .free => w
      | .permitted => w.release
    if isLast then w.call root path else w
  else w

end World

namespace Strand

def result? {α : Type} : Strand α → Option α
  | ended a => some a
  | _ => none

def go {α : Type} (root : Root) (path : List Nat) : Program α → World → Strand α × World
  | .done a, w => (ended a, w)
  | .ask e next, w =>
      let w := w.begin e
      if w.delay e = 0 then
        let (answer, w) := w.perform e
        go root path (next answer) w
      else (waiting e next, w.callAfter (w.delay e) (.branch root path))
  | .fork admission count tasks next, w =>
      if h : count = 0 then
        go root path (next fun i => absurd i.isLt (by omega)) w
      else
        match admission with
        | .free =>
            (split admission count (fun i => idle (tasks i)) count count next,
              w.callAll root path count)
        | .permitted =>
            let (begun, w) := w.admitTasks root path count 0
            (split admission count (fun i => idle (tasks i)) begun count next, w)

/-- Give a strand its turn, or one of its branches. -/
def resume {α : Type} (root : Root) (path : List Nat) : Strand α → List Nat → World →
    Strand α × World
  | ended a, _, w => (ended a, w)
  | idle p, _, w => go root path p w
  | waiting e next, _, w =>
      let (answer, w) := w.perform e
      go root path (next answer) w
  | split admission count branches begun left next, [], w =>
      if begun < count then
        let w := w.call root (path ++ [begun])
        let (begun, w) := w.admitTasks root path (count - (begun + 1)) (begun + 1)
        (split admission count branches begun left next, w)
      else if h : ∀ i, (branches i).result?.isSome then
        go root path (next fun i => (branches i).result?.get (h i)) w
      else (split admission count branches begun left next, w)
  | split admission count branches begun left next, i :: rest, w =>
      if h : i < count then
        let (s, w) := resume root (path ++ [i]) (branches ⟨i, h⟩) rest w
        let isOver := s.result?.isSome
        let left := if isOver then left - 1 else left
        let updated := (Vector.ofFn branches).set i s
        (split admission count (fun j => updated[j]) begun left next,
          w.settle admission root path isOver (left = 0))
      else (split admission count branches begun left next, w)

end Strand

end Mailroom.Bench
