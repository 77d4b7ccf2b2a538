import Mailroom.Text.Cut
import Mailroom.Text.Hex
import Mailroom.Text.Utf8

/-!
Percent-encoded texts: the segments of paths, and queries of names and values.
-/

namespace Mailroom.Text

/-- The bytes that a text stands for; a percent sign without two digits stands for itself. -/
def percentBytes : List Char → List UInt8
  | [] => []
  | '%' :: a :: b :: rest =>
      match hexNumber? [a, b] with
      | some n => UInt8.ofNat n :: percentBytes rest
      | none => 0x25 :: percentBytes (a :: b :: rest)
  | c :: rest => (String.singleton c).toUTF8.toList ++ percentBytes rest

/-- The text that a segment of a path stands for. -/
def segmentText? (segment : String) : Option String := ofUtf8? (percentBytes segment.toList)

/-- The text that a part of a query stands for; a plus sign is a space. -/
def queryText (cs : List Char) : String :=
  ofUtf8Lossy (percentBytes (cs.map fun c => if c = '+' then ' ' else c))

def queryPairs (query : String) : List (String × String) :=
  ((pieces '&' query.toList).filter fun piece => !piece.isEmpty).map fun piece =>
    match cutFirst '=' piece with
    | some (name, value) => (queryText name, queryText value)
    | none => (queryText piece, "")

end Mailroom.Text
