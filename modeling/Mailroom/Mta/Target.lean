import Mailroom.Text.Hex

/-!
The target of an HTTP request, from an address as a person might write it: segments of dots are
resolved, the fragment is dropped, and what may not stand in a target is percent-encoded.
-/

namespace Mailroom.Target

/-- A character as percent-encoded bytes. -/
def percent (c : Char) : List Char :=
  (String.singleton c).toUTF8.toList.flatMap fun b =>
    '%' :: (Text.hexDigits 2 b.toNat).map Char.toUpper

/-- Whether a character has to be encoded wherever it stands. -/
def isForeign (c : Char) : Bool := c.toNat < 0x20 || c.toNat > 0x7E

def foreignToPath (c : Char) : Bool :=
  isForeign c || [' ', '"', '<', '>', '\x60', '#', '?', '\x7b', '\x7d'].contains c

def foreignToQuery (c : Char) : Bool :=
  isForeign c || [' ', '"', '<', '>', '#', '\x27'].contains c

def encoded (foreign : Char → Bool) (cs : List Char) : List Char :=
  cs.flatMap fun c => if foreign c then percent c else [c]

/-- A segment with encoded dots read as dots. -/
def dotted : List Char → List Char
  | '%' :: '2' :: 'e' :: rest => '.' :: dotted rest
  | '%' :: '2' :: 'E' :: rest => '.' :: dotted rest
  | c :: rest => c :: dotted rest
  | [] => []

/-- What a segment does to a path: a dot stays, two dots go back. -/
inductive Move where
  | stay
  | back
  | enter
deriving DecidableEq, Repr

/-- The move of a segment. -/
def move (segment : List Char) : Move :=
  let plain := dotted segment
  if plain = ['.'] then .stay else if plain = ['.', '.'] then .back else .enter

/-- Whether a segment names a drive: a letter and a colon or bar. -/
def isDrive : List Char → Bool
  | [letter, mark] => letter.isAlpha && (mark == ':' || mark == '|')
  | _ => false

/-- The segments, in reverse, without the last one; a drive is never left. -/
def goBack : List (List Char) → List (List Char)
  | [] => []
  | last :: before => if isDrive last then last :: before else before

/-- Resolve the segments of a path, given those before them in reverse; a path that ends in a move
other than entering ends in an empty segment. -/
def resolve : List (List Char) → List (List Char) → List (List Char)
  | [], done => done.reverse
  | [last], done =>
      match move last with
      | .stay => ([] :: done).reverse
      | .back => ([] :: goBack done).reverse
      | .enter => (encoded foreignToPath last :: done).reverse
  | segment :: rest, done =>
      match move segment with
      | .stay => resolve rest done
      | .back => resolve rest (goBack done)
      | .enter => resolve rest (encoded foreignToPath segment :: done)

def segments : List Char → List (List Char)
  | [] => [[]]
  | c :: cs =>
      if c = '/' ∨ c = '\\' then [] :: segments cs
      else match segments cs with
        | [] => [[c]]
        | first :: rest => (c :: first) :: rest

/-- Remove the line breaks and tabs of an address, and controls and spaces at its end. -/
def tidied (cs : List Char) : List Char :=
  ((cs.reverse.dropWhile fun c => c.toNat ≤ 0x20).reverse).filter fun c =>
    c != '\t' && c != '\n' && c != '\r'

/-- The target of what follows the host in an address; none if it does not leave the host as it
is. -/
def ofSuffix? (suffix : String) : Option String :=
  let cs := tidied suffix.toList
  match cs with
  | [] => some "/"
  | c :: _ =>
      if ['/', '\\', '?', '#'].contains c then
        let visible := cs.takeWhile fun c => c != '#'
        let path := visible.takeWhile fun c => c != '?'
        let query := visible.dropWhile fun c => c != '?'
        let parts := match path with
          | [] => [[]]
          | _ :: rest => resolve (segments rest) []
        some (String.ofList ('/' :: (['/'].intercalate parts) ++
          match query with
          | [] => []
          | _ :: query => '?' :: encoded foreignToQuery query))
      else none

end Mailroom.Target
