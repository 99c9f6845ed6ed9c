/-
OffsetAtlas.Csv.Row — what one line of a comma-separated database says.

The first line names the columns and is not looked at. The second declares how many entries there
are and for which version. Every later line is skipped, gives an entry, or is faulty; a line is
judged by itself (`Row.ofLine`), and a fault knows how to word itself for a line number.
-/
import OffsetAtlas.Text.Numeral
import OffsetAtlas.Text.Utf8
import OffsetAtlas.Text.WhiteSpace

namespace OffsetAtlas.Csv

open Text

/-- The byte that ends a line. -/
def newline : UInt8 := 0x0A

/-- The byte a comment starts with. -/
def hash : UInt8 := 0x23

/-- The text in front of the first comma and the text behind it. -/
def atComma (line : List Char) : Option (List Char × List Char) :=
  if ',' ∈ line then
    some (line.takeWhile (· ≠ ','), (line.dropWhile (· ≠ ',')).drop 1)
  else none

/-- A number of 64 bits. -/
def number (text : List Char) : Except Numeral.Fault Nat :=
  Numeral.read 10 UInt64.size text

/-! ## Data rows -/

/-- Why a row gives no entry. -/
inductive RowFault where
  /-- The bytes are no text; the lossy reading stands in. -/
  | notText (reading : List Char)
  /-- There is no comma. -/
  | noComma (line : List Char)
  /-- One of the fields is blank. -/
  | blankField (line : List Char)
  /-- One of the fields is no number. -/
  | notNumber (line : List Char)
  deriving DecidableEq, Repr

/-- The fault of the row with this line number, in words. -/
def RowFault.message (lineNumber : Nat) (fault : RowFault) : String :=
  let about := fun (what : String) (line : List Char) =>
    "CSV line " ++ Numeral.decimal lineNumber ++ ": " ++ what ++ ". Line: '"
      ++ String.ofList line ++ "'"
  match fault with
  | .notText reading => about "Not valid UTF-8" reading
  | .noComma line => about "Invalid format (missing comma)" line
  | .blankField line => about "Empty ID or offset value" line
  | .notNumber line => about "Invalid number format" line

/-- What a line behind the second says. -/
inductive Row where
  | skipped
  | good (id offset : UInt64)
  | bad (fault : RowFault)
  deriving DecidableEq, Repr

/-- The row in a line of text that is not blank. -/
def Row.ofText (line : List Char) : Row :=
  match atComma line with
  | none => .bad (.noComma line)
  | some (left, right) =>
    let left := trim left
    let right := trim right
    if left = [] ∨ right = [] then .bad (.blankField line)
    else match number left, number right with
      | .ok id, .ok offset => .good (UInt64.ofNat id) (UInt64.ofNat offset)
      | _, _ => .bad (.notNumber line)

/-- The row in the bytes of a line. -/
def Row.ofLine (bytes : List UInt8) : Row :=
  if bytes.head? = some hash then .skipped
  else match Utf8.decode? bytes with
    | none => .bad (.notText (Utf8.decodeLossy bytes))
    | some line => if trim line = [] then .skipped else Row.ofText line

/-! ## The second line -/

/-- What the second line declares. -/
structure Declaration where
  expected : Nat
  version : String
  deriving DecidableEq, Repr

/-- Why the second line declares nothing. -/
inductive DeclarationFault where
  | notText
  | noComma (line : List Char)
  | notNumber (line : List Char)
  deriving DecidableEq, Repr

/-- The fault of the second line, in words. -/
def DeclarationFault.message : DeclarationFault → String
  | .notText => "CSV metadata line 2: Not valid UTF-8"
  | .noComma line =>
    "CSV metadata line 2: Invalid format (missing comma). Line: '" ++ String.ofList line ++ "'"
  | .notNumber line =>
    "CSV metadata line 2: Could not parse entry count or version string. Line: '"
      ++ String.ofList line ++ "'"

/-- The declaration in the bytes of the second line. -/
def Declaration.ofLine (bytes : List UInt8) : Except DeclarationFault Declaration :=
  match Utf8.decode? bytes with
  | none => .error .notText
  | some line =>
    match atComma line with
    | none => .error (.noComma line)
    | some (count, version) =>
      match number (trim count) with
      | .ok expected => .ok ⟨expected, String.ofList (trim version)⟩
      | .error _ => .error (.notNumber line)

end OffsetAtlas.Csv
