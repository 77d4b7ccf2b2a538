import Mailroom.Text.Hex

/-!
Texts, comments and keys as TOML writes them.
-/

namespace Mailroom.Toml

def isBare (c : Char) : Bool := c.isAlphanum || c == '_' || c == '-'

def skipSpaces (cs : List Char) : List Char := cs.dropWhile fun c => c == ' ' || c == '\t'

/-- Whether a character may not stand in a text or comment. -/
def isControl (c : Char) : Bool := (c.toNat < 0x20 && c != '\t') || c.toNat == 0x7F

def lineBreak? : List Char → Option (List Char)
  | '\n' :: rest => some rest
  | '\r' :: '\n' :: rest => some rest
  | _ => none

/-- The text after a comment, at the break that ends its line; none if it holds a control. -/
def skipComment? : List Char → Option (List Char)
  | [] => some []
  | c :: rest =>
      if c = '\n' then some (c :: rest)
      else if c = '\r' then (if rest.head? = some '\n' then some (c :: rest) else none)
      else if isControl c then none
      else skipComment? rest

def codeEscape? (count : Nat) (cs : List Char) : Option (Char × List Char) :=
  if (cs.take count).length = count then
    match Text.hexNumber? (cs.take count) with
    | some n =>
        if n < 0xD800 ∨ (0xE000 ≤ n ∧ n < 0x110000) then some (Char.ofNat n, cs.drop count)
        else none
    | none => none
  else none

def escape? : List Char → Option (Char × List Char)
  | 'b' :: rest => some ('\x08', rest)
  | 't' :: rest => some ('\t', rest)
  | 'n' :: rest => some ('\n', rest)
  | 'f' :: rest => some ('\x0c', rest)
  | 'r' :: rest => some ('\r', rest)
  | '"' :: rest => some ('"', rest)
  | '\\' :: rest => some ('\\', rest)
  | 'u' :: rest => codeEscape? 4 rest
  | 'U' :: rest => codeEscape? 8 rest
  | _ => none

/-- The rest of a quoted text on one line; `escapes` says whether the backslash is special. -/
def lineText? (quote : Char) (escapes : Bool) : (fuel : Nat) → List Char → List Char →
    Option (String × List Char)
  | 0, _, _ => none
  | _, [], _ => none
  | fuel + 1, c :: cs, done =>
      if c = quote then some (String.ofList done.reverse, cs)
      else if escapes ∧ c = '\\' then
        match escape? cs with
        | some (c, rest) => lineText? quote escapes fuel rest (c :: done)
        | none => none
      else if isControl c then none
      else lineText? quote escapes fuel cs (c :: done)

/-- Drop blanks and line breaks after a backslash at the end of a line. -/
def skipFolded : List Char → List Char
  | '\r' :: '\n' :: rest => skipFolded rest
  | c :: rest => if c == ' ' || c == '\t' || c == '\n' then skipFolded rest else c :: rest
  | [] => []

/-- The rest of a text over several lines, up to three quotes and at most two more. -/
def blockText? (quote : Char) (escapes : Bool) : (fuel : Nat) → List Char → List Char →
    Option (String × List Char)
  | 0, _, _ => none
  | _, [], _ => none
  | fuel + 1, c :: cs, done =>
      if c = quote ∧ cs.take 2 = [quote, quote] then
        let extra := ((cs.drop 2).take 2).takeWhile fun d => d == quote
        some (String.ofList (extra ++ done).reverse, cs.drop (2 + extra.length))
      else if escapes ∧ c = '\\' then
        match (lineBreak? (skipSpaces cs)) with
        | some rest => blockText? quote escapes fuel (skipFolded rest) done
        | none =>
            match escape? cs with
            | some (c, rest) => blockText? quote escapes fuel rest (c :: done)
            | none => none
      else if c = '\n' then blockText? quote escapes fuel cs (c :: done)
      else if c = '\r' then
        (if cs.head? = some '\n' then blockText? quote escapes fuel cs done else none)
      else if isControl c then none
      else blockText? quote escapes fuel cs (c :: done)

/-- A text in any of the four notations. -/
def text? (cs : List Char) : Option (String × List Char) :=
  let fuel := cs.length + 1
  let afterBreak (rest : List Char) : List Char := (lineBreak? rest).getD rest
  match cs with
  | '"' :: '"' :: '"' :: rest => blockText? '"' true fuel (afterBreak rest) []
  | '\'' :: '\'' :: '\'' :: rest => blockText? '\'' false fuel (afterBreak rest) []
  | '"' :: rest => lineText? '"' true fuel rest []
  | '\'' :: rest => lineText? '\'' false fuel rest []
  | _ => none

def keyPart? (cs : List Char) : Option (String × List Char) :=
  match cs with
  | '"' :: rest => lineText? '"' true (cs.length + 1) rest []
  | '\'' :: rest => lineText? '\'' false (cs.length + 1) rest []
  | cs =>
      let (name, rest) := cs.span isBare
      if name.isEmpty then none else some (String.ofList name, rest)

/-- The deepest nesting of values, and the longest key, that are read. -/
def depthLimit : Nat := 79

/-- A dotted key of at most so many parts, with blanks allowed around the dots and after it. -/
def keyUpTo? : (limit : Nat) → List Char → Option (List String × List Char)
  | 0, _ => none
  | limit + 1, cs => do
      let (part, rest) ← keyPart? (skipSpaces cs)
      match skipSpaces rest with
      | '.' :: rest =>
          let (parts, rest) ← keyUpTo? limit rest
          return (part :: parts, rest)
      | rest => return ([part], rest)

def key? (cs : List Char) : Option (List String × List Char) := keyUpTo? depthLimit cs

end Mailroom.Toml
