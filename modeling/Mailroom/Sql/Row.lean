import Mailroom.Json.Decode
import Mailroom.Sql.Statement

/-!
Reading rows.  A column that holds nothing is refused where the record needs a value; instants are
kept to the microsecond, and a column of JSON may hold a null that is a value.
-/

namespace Mailroom.Sql.Row

open Json (Decoder Fields)

/-- The refusal of a column that holds nothing. -/
def unexpectedNull (column : String) : String :=
  "error occurred while decoding column " ++ column ++
    ": unexpected null; try decoding as an \x60Option\x60"

/-- The refusal of a column that holds a value of another kind. -/
def mismatch (column : String) : String :=
  "error occurred while decoding column " ++ column ++ ": mismatched types"

/-- A column's name as refusals show it. -/
def quoted (name : String) : String := "\"" ++ name ++ "\""

def timeColumns : List String :=
  ["created_at", "updated_at", "deployed_at", "expires_at", "last_used_at", "scheduled_at",
    "started_at", "completed_at", "last_checked_at"]

def jsonColumns : List String := ["scopes", "allowed_domains", "servers", "variables"]

/-- An instant as its column keeps it. -/
def keptTime (j : Json) : Json :=
  match Decoder.time j with
  | .ok t => .str t.wholeMicros.display
  | .error _ => j

def held? (name : String) : Json → Option Json
  | .null => if jsonColumns.contains name then some .null else none
  | j => some (if timeColumns.contains name then keptTime j else j)

def present (row : Row) : Row :=
  row.filterMap fun (name, j) => (held? name j).map fun kept => (name, kept)

def drafts (row : Row) : List (String × Json.Draft) := (present row).map fun (name, j) => (name, ↑j)

def missing? (needed : List String) (row : Row) : Option String :=
  needed.find? fun name => (Json.member? name row).isNone

/-- Read a record out of a row, column by column. -/
def read {α : Type} (f : Fields α) (row : Row) : Except String α :=
  match missing? f.needed (present row) with
  | some name => .error (unexpectedNull (quoted name))
  | none =>
      match f.ofMembers (drafts row) with
      | .ok a => .ok a
      | .error _ =>
          let wrong := f.checks.find? fun (name, check) =>
            match Json.member? name (present row) with
            | some j => !(check j).isOk
            | none => false
          .error (mismatch (quoted ((wrong.map Prod.fst).getD "")))

def cell {α : Type} (place : Nat) (name : String) (d : Decoder α) (row : Row) : Except String α :=
  match Json.member? name (present row) with
  | none => .error (unexpectedNull (toString place))
  | some j => (d j).mapError fun _ => mismatch (toString place)

end Mailroom.Sql.Row
