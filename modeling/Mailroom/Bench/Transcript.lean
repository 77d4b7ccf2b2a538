import Mailroom.Bench.World
import Mailroom.Store.Format

/-!
What was said to a database, as it is shown.  Identifiers that were given out on the way are
numbered by their first appearance, and instants that are close to the present are not told apart.
-/

namespace Mailroom.Bench

open Sql (Command Value)

/-- Every run of blanks made one space; `wasBlank` tells whether one has just been seen. -/
def squeeze : (wasBlank : Bool) → List Char → List Char
  | _, [] => []
  | wasBlank, c :: cs =>
      if Text.isBlank c then if wasBlank then squeeze true cs else ' ' :: squeeze true cs
      else c :: squeeze false cs

def oneLine (s : String) : String := String.ofList (Text.trim (squeeze false s.toList))

/-- The identifiers given out among those of a value. -/
def newIds : Value → List Uuid
  | .id id => [id].filter fun id => id.version == 7
  | .ids ids => ids.filter fun id => id.version == 7
  | _ => []

def commandIds : Command → List Uuid
  | .statement _ values => values.flatMap newIds
  | _ => []

/-- The identifiers given out in some commands, in the order of their first appearance, behind those
seen before. -/
def appearing (seen : List Uuid) (said : List Command) : List Uuid :=
  (said.flatMap commandIds).foldl
    (fun seen id => if seen.contains id then seen else seen ++ [id]) seen

/-- An identifier; one that was given out is shown by its number. -/
def shownId (seen : List Uuid) (id : Uuid) : Json :=
  match seen.findIdx? fun other => other == id with
  | some n => .str ("<uuid-" ++ toString (n + 1) ++ ">")
  | none => id.toJson

/-- How close to the present an instant has to be in order not to be told apart, in seconds. -/
def nearness : Nat := 86400

def shownTime (t : Timestamp) : Json :=
  if (t.seconds - World.beginning.seconds).natAbs < nearness then .str "<now>"
  else t.cutToMicros.toJson

def shownValue (seen : List Uuid) : Value → Json
  | .null => .null
  | .text s => .str s
  | .bool b => .bool b
  | .int n => .int n
  | .json j => j
  | .id id => shownId seen id
  | .time t => shownTime t
  | .texts ss => .ofStrings ss
  | .ids ids => .arr (ids.map (shownId seen))

def shownStatement (text : String) (values : List Json) : Json :=
  .obj [("sql", .str (oneLine text)), ("params", .arr values)]

def shownCommand (seen : List Uuid) : Command → Json
  | .statement text values => shownStatement text (values.map (shownValue seen))
  | .beginTransaction => shownStatement "BEGIN" []
  | .commit => shownStatement "COMMIT" []
  | .rollback => shownStatement "ROLLBACK" []
  | .recordMigration version name digest =>
      .obj [("applied", .arr [.int version, .str name, .str digest])]

end Mailroom.Bench
