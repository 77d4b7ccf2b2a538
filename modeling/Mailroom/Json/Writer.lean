import Mailroom.Json.Basic
import Mailroom.Decimal.Shortest
import Mailroom.Text.Hex

/-!
The compact text of a JSON value: no blanks, strings escaped only where they have to be, and the
shortest decimals that read back for numbers that are not whole.
-/

namespace Mailroom.Json

/-- Numbers are written out while their first digit counts between 10^-5 and 10^15. -/
def numberFormat : Decimal.Format := ⟨-5, 15, "e", "+", ".0"⟩

def escaped (c : Char) : List Char :=
  if c = '"' then ['\\', '"']
  else if c = '\\' then ['\\', '\\']
  else if c = '\n' then ['\\', 'n']
  else if c = '\r' then ['\\', 'r']
  else if c = '\t' then ['\\', 't']
  else if c = '\x08' then ['\\', 'b']
  else if c = '\x0c' then ['\\', 'f']
  else if c.toNat < 0x20 then '\\' :: 'u' :: Text.hexDigits 4 c.toNat
  else [c]

def quoted (s : String) : String := String.ofList ('"' :: (s.toList.flatMap escaped ++ ['"']))

/-- The text of a number that is not whole; JSON has none for an infinite one. -/
def realText (x : Float) : String :=
  if x.isFinite then numberFormat.floatText x else "null"

mutual

def render : Json → String
  | null => "null"
  | bool b => if b then "true" else "false"
  | int n => toString n
  | real x => realText x
  | str s => quoted s
  | arr items => "[" ++ renderItems items ++ "]"
  | obj members => "\x7b" ++ renderMembers members ++ "\x7d"

def renderItems : List Json → String
  | [] => ""
  | [item] => render item
  | item :: rest => render item ++ "," ++ renderItems rest

def renderMembers : List (String × Json) → String
  | [] => ""
  | [(name, value)] => quoted name ++ ":" ++ render value
  | (name, value) :: rest => quoted name ++ ":" ++ render value ++ "," ++ renderMembers rest

end

end Mailroom.Json
