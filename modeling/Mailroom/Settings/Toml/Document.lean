import Mailroom.Settings.Toml.Date
import Mailroom.Settings.Toml.Text

/-!
Values and documents in TOML.  A document is a sequence of headers and of keys with values.
-/

namespace Mailroom.Toml

/-- A value written without quotes or brackets. -/
def plain? (cs : List Char) : Option Toml :=
  if cs = "true".toList then some (bool true)
  else if cs = "false".toList then some (bool false)
  else (wholeNumber? cs).orElse fun _ => (floatNumber? cs).orElse fun _ => dateTime? cs

def isPlain (c : Char) : Bool := c.isAlphanum || "+-_.:".toList.contains c

/-- The characters of such a value; one blank may part a date from a time. -/
def plainSpan (cs : List Char) : List Char × List Char :=
  let (first, rest) := cs.span isPlain
  match rest with
  | ' ' :: d :: _ =>
      if hasShape "0000-00-00".toList first ∧ d.isDigit then
        let (second, rest) := (rest.drop 1).span isPlain
        (first ++ ' ' :: second, rest)
      else (first, rest)
  | rest => (first, rest)

/-- Drop blanks, line breaks and comments. -/
def skipLines? : (fuel : Nat) → List Char → Option (List Char)
  | 0, _ => none
  | fuel + 1, cs =>
      match skipSpaces cs with
      | '#' :: rest => do skipLines? fuel (← skipComment? rest)
      | cs =>
          match lineBreak? cs with
          | some rest => skipLines? fuel rest
          | none => some cs

mutual

/-- A value; lists and inline tables may be nested only so deep. -/
def value? : (fuel depth : Nat) → List Char → Option (Toml × List Char)
  | 0, _, _ => none
  | fuel + 1, depth, cs =>
      match cs with
      | '"' :: _ => (text? cs).map fun (s, rest) => (text s, rest)
      | '\'' :: _ => (text? cs).map fun (s, rest) => (text s, rest)
      | '[' :: rest =>
          if depth = 0 then none
          else (listItems? fuel (depth - 1) rest []).map fun (items, rest) => (list items, rest)
      | c :: rest =>
          if c = '\x7b' then
            if depth = 0 then none
            else match skipSpaces rest with
              | [] => none
              | d :: after =>
                  if d = '\x7d' then some (table .inline [], after)
                  else
                    (inlineEntries? fuel (depth - 1) (d :: after) []).map fun (es, rest) =>
                      (table .inline es, rest)
          else
            let (word, rest) := plainSpan cs
            (plain? word).map fun v => (v, rest)
      | [] => none

def listItems? : (fuel depth : Nat) → List Char → List Toml → Option (List Toml × List Char)
  | 0, _, _, _ => none
  | fuel + 1, depth, cs, done =>
      match skipLines? (cs.length + 1) cs with
      | none => none
      | some (']' :: rest) => some (done.reverse, rest)
      | some cs =>
          match value? fuel depth cs with
          | none => none
          | some (item, rest) =>
              match skipLines? (rest.length + 1) rest with
              | some (',' :: rest) => listItems? fuel depth rest (item :: done)
              | some (']' :: rest) => some ((item :: done).reverse, rest)
              | _ => none

/-- The entries of an inline table up to its end. -/
def inlineEntries? : (fuel depth : Nat) → List Char → Entries → Option (Entries × List Char)
  | 0, _, _, _ => none
  | fuel + 1, depth, cs, done =>
      match key? cs with
      | some (path, '=' :: rest) =>
          match value? fuel depth (skipSpaces rest) with
          | none => none
          | some (value, rest) =>
              match setKey path value done with
              | none => none
              | some done =>
                  match skipSpaces rest with
                  | ',' :: rest => inlineEntries? fuel depth rest done
                  | c :: rest => if c = '\x7d' then some (done, rest) else none
                  | [] => none
      | _ => none

end

/-- The end of a line: blanks, maybe a comment, and a break or the end of the document. -/
def endLine? (cs : List Char) : Option (List Char) := do
  let rest ← match skipSpaces cs with
    | '#' :: rest => skipComment? rest
    | rest => some rest
  if rest.isEmpty then some [] else lineBreak? rest

/-- The path of a header after its opening brackets, and the text after its closing ones. -/
def header? (closing : List Char) (cs : List Char) : Option (List String × List Char) := do
  let (path, rest) ← key? cs
  if rest.take closing.length = closing then
    return (path, ← endLine? (rest.drop closing.length))
  else none

/-- The lines of a document, with the path of the table that is open and all entries so far. -/
def lines? : (fuel : Nat) → List String → Entries → List Char → Option Entries
  | 0, _, _, _ => none
  | fuel + 1, current, entries, cs => do
      match ← skipLines? (cs.length + 1) cs with
      | [] => return entries
      | '[' :: '[' :: rest =>
          let (path, rest) ← header? [']', ']'] rest
          let name ← path.getLast?
          lines? fuel path (← atHeader path.dropLast (addTable name) entries) rest
      | '[' :: rest =>
          let (path, rest) ← header? [']'] rest
          let name ← path.getLast?
          lines? fuel path (← atHeader path.dropLast (openTable name) entries) rest
      | cs =>
          let (path, rest) ← key? cs
          match rest with
          | '=' :: rest =>
              let (value, rest) ← value? (rest.length + 2) depthLimit (skipSpaces rest)
              let rest ← endLine? rest
              lines? fuel current (← atHeader current (setKey path value) entries) rest
          | _ => none

def parse? (document : String) : Option Entries :=
  let cs := document.toList
  let cs := if cs.head? = some '\ufeff' then cs.drop 1 else cs
  lines? (cs.length + 1) [] [] cs

end Mailroom.Toml
