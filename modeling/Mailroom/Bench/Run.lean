import Mailroom.Bench.Strand

/-!
Running programs on the bench.  Turns are taken in the order in which they fall due, and the clock
moves only when no turn is due, to the next time that something waits for.
-/

namespace Mailroom.Bench

/-- The world, and the engine's tick that its own loop is in. -/
structure Stage where
  world : World
  tick : Strand TickReport := .ended {}

namespace Stage

/-- A loop takes turns this much late, in milliseconds, before it counts as late. -/
def tolerance : Nat := 5

/-- The next time of a loop that is due at `deadline`; one that is late starts anew. -/
def nextDeadline (l : Loop) (deadline now : Nat) : Nat :=
  if deadline + tolerance < now then now + l.period else deadline + l.period

/-- The engine's loop goes on behind a tick: what it does next comes first. -/
def afterTick (b : Stage) : Stage :=
  match b.tick, b.world.loop with
  | .ended _, some l =>
      if l.isBusy then
        { b with
          world :=
            { b.world with loop := some { l with isBusy := false }, due := .loop :: b.world.due } }
      else b
  | _, _ => b

/-- The engine's loop has its turn: it ends, begins a tick, or waits. -/
def turnLoop (b : Stage) : Stage :=
  let w := b.world
  match w.loop with
  | none => b
  | some l =>
      if l.isBusy then b
      else if w.isStopping then { b with world := { w with loop := none } }
      else
        let deadline := l.deadline.getD w.clock
        if deadline ≤ w.clock then
          let l := { l with deadline := some (nextDeadline l deadline w.clock), isBusy := true }
          let (tick, w) := Strand.go .engine [] w.engine.tick { w with loop := some l }
          afterTick ⟨w, tick⟩
        else
          { b with
            world :=
              { w with loop := some { l with deadline := some deadline } }.callAfter
                (deadline - w.clock) .loop }

/-- The sweeper has its turn.  Its first turn sweeps nothing. -/
def turnSweeper (w : World) : World :=
  match w.sweeper with
  | none => w
  | some l =>
      match l.deadline with
      | none =>
          { w with sweeper := some { l with deadline := some (w.clock + l.period) } }.callAfter
            l.period .sweep
      | some deadline =>
          if w.clock < deadline then w
          else
            let missed := (w.clock - deadline) / l.period
            let next := deadline + (missed + 1) * l.period
            { w with
              limiter := (w.limiter.sweep w.clock).2
              sweeper := some { l with deadline := some next } }.callAfter (next - w.clock) .sweep

def take {α : Type} (b : Stage) (step : Strand α) : Turn → Stage × Strand α
  | .branch .step path =>
      let (step, w) := step.resume .step [] path b.world
      ({ b with world := w }, step)
  | .branch .engine path =>
      let (tick, w) := b.tick.resume .engine [] path b.world
      (afterTick ⟨w, tick⟩, step)
  | .background call => ({ b with world := (b.world.store call).2 }, step)
  | .loop => (b.turnLoop, step)
  | .sweep => ({ b with world := turnSweeper b.world }, step)

/-- Whether a turn is the step's own. -/
def isStepTurn : Turn → Bool
  | .branch .step [] => true
  | _ => false

/-- The turns whose time has come are due, the step's own before the others. -/
def fire (w : World) : World :=
  let (ripe, later) := w.timers.partition fun t => t.1 ≤ w.clock
  let turns := (ripe.mergeSort fun a b => a.1 ≤ b.1).map Prod.snd
  { w with
    timers := later
    due := w.due ++ turns.filter isStepTurn ++ turns.filter fun t => !isStepTurn t }

def nextTime? (w : World) : Option Nat := (w.timers.map Prod.fst).min?

/-- Take turns until something holds; `fuel` bounds their number. -/
def settle {α : Type} (isOver : Stage → Strand α → Bool) : (fuel : Nat) → Stage → Strand α →
    Stage × Strand α
  | 0, b, step => (b, step)
  | fuel + 1, b, step =>
      if isOver b step then (b, step)
      else
        match b.world.due with
        | turn :: due =>
            let (b, step) := { b with world := { b.world with due } }.take step turn
            settle isOver fuel b step
        | [] =>
            match nextTime? b.world with
            | none => (b, step)
            | some time =>
                let clock := max b.world.clock time
                settle isOver fuel { b with world := fire { b.world with clock } } step

/-- How many turns a step may take. -/
def patience : Nat := 1000000000

/-- Run a program as a step; nothing comes back if it never ends. -/
def run {α : Type} (b : Stage) (p : Program α) : Option α × Stage :=
  let (step, w) := Strand.go .step [] p b.world
  let (b, step) := settle (fun _ step => step.result?.isSome) patience { b with world := w } step
  (step.result?, b)

def sleep (b : Stage) (milliseconds : Nat) : Stage :=
  (b.run (Program.request (.sleep milliseconds))).2

/-- Take the turns that are due, and those that fall due at once through them. -/
def takeDue (b : Stage) : Stage :=
  (settle (fun b _ => b.world.due.isEmpty) patience b (Strand.ended ())).1

/-- Move the clock.  What had been due takes its turn, and what has come to its time is due. -/
def advance (b : Stage) (milliseconds : Nat) : Stage :=
  let b := takeDue { b with world := { b.world with clock := b.world.clock + milliseconds } }
  { b with world := fire b.world }

def start (b : Stage) : Stage :=
  match b.world.loop with
  | some _ => b
  | none =>
      let period := 1000 * max 1 b.world.engine.settings.pollSeconds
      { b with
        world := { b.world with loop := some { period }, due := b.world.due ++ [.loop] } }

/-- Stop the engine's loop, and wait for the tick that it is in. -/
def stop (b : Stage) : Stage :=
  let w := { b.world with isStopping := true, due := b.world.due ++ [.loop] }
  (settle (fun b _ => b.world.loop.isNone) patience { b with world := w } (Strand.ended ())).1

def startSweeper (b : Stage) (period : Nat) : Stage :=
  { b with
    world := { b.world with sweeper := some { period }, due := b.world.due ++ [.sweep] } }

/-- Stop sweeping; the answer says whether there was anything to stop. -/
def stopSweeper (b : Stage) : Bool × Stage :=
  (b.world.sweeper.isSome, { b with world := { b.world with sweeper := none } })

end Stage

end Mailroom.Bench
