import PacketProtocol.Text.Hex
import PacketProtocol.Text.Visible
/-!
# Quoted text

A text between double quotes, as error messages and printed values show it. Quotes, backslashes
and the usual controls have short escapes; other hidden characters are written by code point.
-/

namespace PacketProtocol.Text

/-- How one character is written between quotes. -/
def escape (c : Char) : String :=
  if c = '\x00' then "\\0"
  else if c = '\t' then "\\t"
  else if c = '\n' then "\\n"
  else if c = '\r' then "\\r"
  else if c = '\x22' then "\\\x22"
  else if c = '\\' then "\\\\"
  else if isVisible c then c.toString
  else "\\u\x7b" ++ hexDigits 0 c.toNat ++ "\x7d"

/-- The text in quotes. -/
def quoted (text : String) : String :=
  "\x22" ++ String.join (text.toList.map escape) ++ "\x22"

end PacketProtocol.Text
