/-
OffsetAtlas.Text.Json — values as indented JSON text.

Objects take one line for each field, two columns further in than the object, and keep the order of
their fields. In strings only quotes, backslashes and controls are escaped.
-/
import OffsetAtlas.Text.Quoted

namespace OffsetAtlas.Text

/-- The values that summaries are made of. -/
inductive Json where
  | null
  | number (n : Nat)
  | text (s : String)
  | object (fields : List (String × Json))

namespace Json

/-- One character inside a JSON string. -/
def escapedChar (c : Char) : List Char :=
  if c = '"' then ['\\', '"']
  else if c = '\\' then ['\\', '\\']
  else if c = '\x08' then ['\\', 'b']
  else if c = '\t' then ['\\', 't']
  else if c = '\n' then ['\\', 'n']
  else if c = '\x0c' then ['\\', 'f']
  else if c = '\r' then ['\\', 'r']
  else if c.toNat < 0x20 then
    ['\\', 'u', '0', '0', Numeral.digit (c.toNat / 16), (Numeral.digit (c.toNat % 16)).toLower]
  else [c]

/-- A JSON string. -/
def ofText (s : String) : String :=
  String.ofList (['"'] ++ s.toList.flatMap escapedChar ++ ['"'])

/-- A new line with so many levels of indentation. -/
def newLine (depth : Nat) : String :=
  String.ofList ('\n' :: List.replicate (2 * depth) ' ')

/-- The text of a value that starts at some level of indentation. -/
def render (depth : Nat) : Json → String
  | .null => "null"
  | .number n => Numeral.decimal n
  | .text s => ofText s
  | .object [] => "\x7b\x7d"
  | .object (field :: fields) =>
    "\x7b" ++ renderFields (depth + 1) (field :: fields) ++ newLine depth ++ "\x7d"
where
  /-- The fields of an object, each on its line. -/
  renderFields (depth : Nat) : List (String × Json) → String
    | [] => ""
    | [(key, value)] => newLine depth ++ ofText key ++ ": " ++ render depth value
    | (key, value) :: fields =>
      newLine depth ++ ofText key ++ ": " ++ render depth value ++ "," ++ renderFields depth fields

/-- A whole document. -/
def pretty (j : Json) : String :=
  render 0 j

end Json

end OffsetAtlas.Text
