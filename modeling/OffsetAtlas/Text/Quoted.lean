/-
OffsetAtlas.Text.Quoted — a text between double quotes, with one line and no doubt about its ends.

Quotes and backslashes get a backslash in front, the commonest controls have short forms, and every
other character without a picture of its own is given by its code point.
-/
import OffsetAtlas.Text.Numeral
import OffsetAtlas.Text.Printable

namespace OffsetAtlas.Text

/-- The digits of a number in lower-case hexadecimal. -/
def lowerHex (n : Nat) : List Char :=
  (Numeral.write 16 n).map Char.toLower

/-- One character inside quotes. -/
def quotedChar (c : Char) : List Char :=
  if c = '\x00' then ['\\', '0']
  else if c = '\t' then ['\\', 't']
  else if c = '\n' then ['\\', 'n']
  else if c = '\r' then ['\\', 'r']
  else if c = '"' then ['\\', '"']
  else if c = '\\' then ['\\', '\\']
  else if isPlain c then [c]
  else ['\\', 'u', '\x7b'] ++ lowerHex c.toNat ++ ['\x7d']

/-- A text in quotes. -/
def quoted (s : String) : String :=
  String.ofList (['"'] ++ s.toList.flatMap quotedChar ++ ['"'])

end OffsetAtlas.Text
