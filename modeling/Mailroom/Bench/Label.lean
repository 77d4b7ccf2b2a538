import Mailroom.Bench.World
import Std.Data.HashMap

/-!
Labels for the rows that are created on the bench, whose identifiers nobody can foresee: jobs, their
items and direct sends are numbered in the order of their creation.
-/

namespace Mailroom.Bench

namespace World

/-- The job of a number, counted from one. -/
def jobId (w : World) (number : Int) : Uuid :=
  if number < 1 then .zero else ((w.tables.jobs[number.toNat - 1]?).map Job.id).getD .zero

/-- The direct send of a number, counted from one. -/
def sendId (w : World) (number : Int) : Uuid :=
  if number < 1 then .zero else ((w.tables.sends[number.toNat - 1]?).map SendRecord.id).getD .zero

/-- The item of a number in its job, counted from one. -/
def itemId (w : World) (job : Uuid) (number : Int) : Uuid :=
  if number < 1 then .zero
  else (((w.tables.itemsOf job)[number.toNat - 1]?).map Item.id).getD .zero

end World

abbrev Labels := Std.HashMap String String

/-- The labels of some rows that are numbered behind a common lead. -/
def Labels.number (labels : Labels) (lead : String) (ids : List Uuid) : Labels :=
  ids.zipIdx.foldl
    (fun labels (id, n) => labels.insert id.display (lead ++ toString (n + 1))) labels

def Labels.ofTables (t : Tables) : Labels :=
  let jobs := t.jobs.zipIdx.foldl
    (fun (labels : Labels) (j, n) =>
      labels.number ("job-" ++ toString (n + 1) ++ "/item-") ((t.itemsOf j.id).map Item.id)) ∅
  (jobs.number "job-" (t.jobs.map Job.id)).number "send-" (t.sends.map SendRecord.id)

def idLength : Nat := 36

/-- Whether the first characters of a text might be an identifier. -/
def beginsLikeId (cs : List Char) : Bool :=
  (cs.drop 8).head? == some '-' && (cs.drop 23).head? == some '-'

/-- The characters of a text with the identifiers in it replaced by their labels. -/
def Labels.applyChars (labels : Labels) : (fuel : Nat) → List Char → List Char
  | 0, cs => cs
  | _, [] => []
  | fuel + 1, c :: cs =>
      let label? := if beginsLikeId (c :: cs) then
          labels[String.ofList ((c :: cs).take idLength)]?
        else none
      match label? with
      | some label => label.toList ++ labels.applyChars fuel ((c :: cs).drop idLength)
      | none => c :: labels.applyChars fuel cs

/-- A text with the identifiers in it replaced by their labels. -/
def Labels.apply (labels : Labels) (s : String) : String :=
  if s.length < idLength then s else String.ofList (labels.applyChars s.length s.toList)

mutual

/-- A value with every text in it changed, the names of members too. -/
def mapTexts (f : String → String) : Json → Json
  | .str s => .str (f s)
  | .arr items => .arr (mapItems f items)
  | .obj members => .obj (mapMembers f members)
  | other => other

def mapItems (f : String → String) : List Json → List Json
  | [] => []
  | item :: rest => mapTexts f item :: mapItems f rest

def mapMembers (f : String → String) : List (String × Json) → List (String × Json)
  | [] => []
  | (name, value) :: rest => (f name, mapTexts f value) :: mapMembers f rest

end

/-- The number that a text begins with, and what follows it and the brace behind it. -/
def leadingNumber (s : String) : Nat × String :=
  let (digits, rest) := s.toList.span Char.isDigit
  (digits.foldl (fun n (c : Char) => n * 10 + (c.toNat - 48)) 0, String.ofList (rest.drop 1))

/-- A text with the references of one kind replaced by identifiers. -/
def replaceRefs (kind : String) (ref : Nat → Uuid) (s : String) : String :=
  match s.splitOn ("\x7b" ++ kind ++ ":") with
  | [] => s
  | first :: rest =>
      rest.foldl
        (fun done piece =>
          let (number, rest) := leadingNumber piece
          done ++ (ref number).display ++ rest) first

/-- A text with references to created rows, such as a job's number in braces, replaced by their
identifiers. -/
def World.resolveRefs (w : World) (s : String) : String :=
  replaceRefs "send" (fun n => w.sendId n) (replaceRefs "job" (fun n => w.jobId n) s)

end Mailroom.Bench
