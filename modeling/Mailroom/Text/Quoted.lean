import Mailroom.Text.Hex
import Mailroom.Text.Printable

/-!
Quoted texts for messages: a text between quotes in which every character can be seen.
-/

namespace Mailroom.Text

/-- A character between quotes: itself if it is shown, else an escape. -/
def quotedChar (c : Char) : String :=
  if c = '\x00' then "\\0"
  else if c = '\t' then "\\t"
  else if c = '\r' then "\\r"
  else if c = '\n' then "\\n"
  else if c = '"' then "\\\""
  else if c = '\\' then "\\\\"
  else if isShown c then String.singleton c
  else "\\u\x7b" ++ hexOfNat c.toNat ++ "\x7d"

def quoted (s : String) : String := "\"" ++ String.join (s.toList.map quotedChar) ++ "\""

end Mailroom.Text
