import Mailroom.Bench.Session
import Mailroom.Bench.Station
import Mailroom.Engine.Tick
import Mailroom.Routing.Route
import Mailroom.Store.Memory

/-!
The world that programs run in on the bench: the store in memory with faults put into it, or in a
database that follows a script, mail servers that follow scripts, and a clock that stands still
unless it is moved.
-/

namespace Mailroom.Bench

/-- A fault of a store call: after some calls that go through, some fail or miss their row. -/
structure Fault where
  skip : Nat
  count : Nat
  misses : Bool
deriving DecidableEq, Repr

/-- Who takes turns: the step at hand, or the engine's own loop. -/
inductive Root where
  | step
  | engine
deriving DecidableEq, Repr

/-- A turn that is due: of a branch of a running program, of a background call, or of a loop. -/
inductive Turn where
  | branch (root : Root) (path : List Nat)
  | background (call : StoreCall)
  | loop
  | sweep

/-- Something that is done over and over: when next, and whether it is being done. -/
structure Loop where
  period : Nat
  deadline : Option Nat := none
  isBusy : Bool := false
deriving DecidableEq, Repr

/-- The world of the bench; with a session the store is in its database. -/
structure World where
  router : Router
  engine : Engine
  session : Option Session := none
  tables : Tables := {}
  faults : Bindings Fault := []
  stations : List Station := []
  clock : Nat := 0
  stamp : Nat := 0
  selection : Selection := .initial
  limiter : Limiter := .empty
  accepted : List (Uuid × String) := []
  isStopping : Bool := false
  due : List Turn := []
  timers : List (Nat × Turn) := []
  permits : Nat := 1
  waiting : List (Root × List Nat) := []
  loop : Option Loop := none
  sweeper : Option Loop := none

namespace World

/-- The beginning of civil time on the bench, in seconds. -/
def dawn : Int := 1780000000

/-- The instant after so many stamps. -/
def instant (stamp : Nat) : Timestamp :=
  let t := Timestamp.ofNanos stamp
  { t with seconds := t.seconds + dawn }

/-- The instant that the world, and the rows it begins with, are made at. -/
def beginning : Timestamp := instant 0

/-- Look at the clock of civil time; no two looks show the same. -/
def now (w : World) : Timestamp × World := (instant w.stamp, { w with stamp := w.stamp + 1 })

/-- Whether a call meets a fault, and whether that makes it miss its row. -/
def meetFault (w : World) (label : String) : Option Bool × World :=
  match w.faults.lookup label with
  | none => (none, w)
  | some f =>
      let put (f : Fault) : World := { w with faults := Bindings.put label f w.faults }
      if 0 < f.skip then (none, put { f with skip := f.skip - 1 })
      else if 0 < f.count then (some f.misses, put { f with count := f.count - 1 })
      else (none, w)

/-- Call the store in memory as it is. -/
def serve (w : World) (c : StoreCall) : c.Reply × World :=
  let (now, w) := w.now
  let (reply, tables) := w.tables.serve now c
  (reply, { w with tables })

/-- The failure of a call that meets a fault. -/
def injected (c : StoreCall) : Failure := .database ("injected " ++ c.label)

def fromMemory (w : World) (c : StoreCall) : c.Answer × World :=
  match w.meetFault c.label with
  | (none, w) =>
      let (reply, w) := w.serve c
      (.ok reply, w)
  | (some misses, w) =>
      match if misses then c.missed? else none with
      | some reply => (.ok reply, w)
      | none => (.error (injected c), w)

/-- The dialogue of a call at this time, and the world in which its identifiers are given out. -/
def dialogueOf (w : World) (c : StoreCall) : Sql.Dialogue c.Reply × World :=
  let (now, w) := w.now
  let first := w.tables.issued
  (c.dialogue now fun n => .issued (first + n),
    { w with tables := { w.tables with issued := first + c.issues } })

def store (w : World) (c : StoreCall) : c.Answer × World :=
  match w.session with
  | none => w.fromMemory c
  | some s =>
      let (dialogue, w) := w.dialogueOf c
      let (answer, s) := s.converse dialogue
      (answer, { w with session := some s })

def storeLater (w : World) (c : StoreCall) : World :=
  match w.session with
  | none => { w with due := w.due ++ [.background c] }
  | some s =>
      let (dialogue, w) := w.dialogueOf c
      { w with session := some (s.defer ((fun _ => ()) <$> dialogue)) }

/-- Hold a dialogue with the database; without one it has nothing to say. -/
def converse (w : World) (d : Sql.Dialogue Unit) : Except Failure Unit × World :=
  match w.session with
  | none => (.ok (), w)
  | some s =>
      let (answer, s) := s.converse d
      (answer, { w with session := some s })

/-- Ask whether the database is there; the store in memory always is. -/
def ping (w : World) : Except Failure Unit × World := w.converse Sql.ping

def migrate (w : World) : Except Failure Unit × World :=
  w.converse (Sql.migrate ((w.session.map Session.history).getD {}))

def updateStation (w : World) (name : String) (change : Station → Station) : World :=
  { w with stations := Tables.updateFirst (fun s => s.name == name) change w.stations }

def station? (w : World) (name : String) : Option Station :=
  w.stations.find? fun s => s.name == name

def mta (w : World) (server : String) (call : MtaCall) : call.Answer × World :=
  match w.station? server with
  | none => (.error (.transport ("no route to " ++ server)), w)
  | some s =>
      let (answer, s) := s.answer call
      (answer, w.updateStation server fun _ => s)

def delay (w : World) : Effect → Nat
  | .sleep milliseconds => milliseconds
  | .mta server (.submit _) => ((w.station? server).map Station.delay).getD 0
  | _ => 0

def begin (w : World) : Effect → World
  | .mta server (.submit _) => w.updateStation server Station.enter
  | _ => w

def perform (w : World) : (e : Effect) → e.Answer × World
  | .store call => w.store call
  | .storeLater call => ((), w.storeLater call)
  | .mta server call => w.mta server call
  | .ping => w.ping
  | .now => w.now
  | .sleep _ => ((), w)
  | .choose strategy key servers =>
      let (place, selection) := w.selection.select strategy key servers
      (place, { w with selection })
  | .allow key perMinute perHour =>
      let (admitted, limiter) := w.limiter.allow key perMinute perHour w.clock
      (admitted, { w with limiter })
  | .remaining key perMinute perHour => (w.limiter.remaining key perMinute perHour w.clock, w)
  | .accepted => (w.accepted, w)
  | .keepAccepted item remoteId =>
      ((), { w with accepted := Engine.keep item remoteId w.accepted })
  | .dropAccepted item => ((), { w with accepted := Engine.forget item w.accepted })
  | .stopping => (w.isStopping, w)

end World

end Mailroom.Bench
