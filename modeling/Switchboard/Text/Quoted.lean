import Switchboard.Text.Hex
import Switchboard.Text.Printable

/-!
# Quoted text

`quote` writes a text between double quotes, on one line and so that every character shows: the
quote, the backslash and the common control characters after a backslash, and whatever else is not
printable by its number in hexadecimal.
-/

namespace Switchboard.Quoted

/-- How a character is written between the quotes. -/
def escape (char : Char) : String :=
  if char = '\x00' then "\\0"
  else if char = '\t' then "\\t"
  else if char = '\n' then "\\n"
  else if char = '\r' then "\\r"
  else if char = '"' then "\\\""
  else if char = '\\' then "\\\\"
  else if Printable.isPrintable char then String.singleton char
  else "\\u\x7b" ++ Hex.ofNat char.toNat ++ "\x7d"

/-- Writes a text between quotes. -/
def quote (text : String) : String :=
  "\"" ++ String.join (text.toList.map escape) ++ "\""

/-- Writes a list of texts between brackets, each of them quoted. -/
def quoteAll (texts : List String) : String :=
  "[" ++ ", ".intercalate (texts.map quote) ++ "]"

end Switchboard.Quoted
