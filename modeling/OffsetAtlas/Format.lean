/-
OffsetAtlas.Format — the layouts a database file can have, and their tags.

A binary file starts with a tag that tells its layout; packed files and rows of text carry none and
are known by their names. Every layout but the dense one is an ordered table in memory.
-/
import OffsetAtlas.Text.Numeral

namespace OffsetAtlas

/-- The number a layout is known by. -/
inductive FormatTag where
  | csv
  | packed
  | firstDelta
  | secondDelta
  | dense
  deriving DecidableEq, Repr

/-- The layout of a database file. -/
inductive Format where
  /-- Entries as they are used in memory. -/
  | packed
  /-- Entries as differences, in a revision of that encoding. -/
  | delta (revision : UInt32)
  /-- One slot for each identifier from zero on. -/
  | dense
  /-- Rows of text. -/
  | csv
  deriving DecidableEq, Repr

namespace FormatTag

/-- The tag's value. -/
def number : FormatTag → Int
  | .csv => -100
  | .packed => 0
  | .firstDelta => 1
  | .secondDelta => 2
  | .dense => 5

/-- The layouts a file can announce by its tag. -/
def ofNumber? (n : UInt32) : Option FormatTag :=
  if n = 1 then some .firstDelta
  else if n = 2 then some .secondDelta
  else if n = 5 then some .dense
  else none

/-- Whether tables of this layout are ordered by identifier and not indexed by it. -/
def isOrdered (t : FormatTag) : Bool :=
  t ≠ .dense

end FormatTag

namespace Format

/-- The tag of a layout; later revisions of the delta encoding share the second one's. -/
def tag : Format → FormatTag
  | .packed => .packed
  | .delta revision => if revision = 1 then .firstDelta else .secondDelta
  | .dense => .dense
  | .csv => .csv

/-- The layout a tag stands for. -/
def ofTag : FormatTag → Format
  | .csv => .csv
  | .packed => .packed
  | .firstDelta => .delta 1
  | .secondDelta => .delta 2
  | .dense => .dense

/-- Whether tables of this layout are ordered by identifier. -/
def isOrdered (f : Format) : Bool :=
  f.tag.isOrdered

/-- The layout as summaries name it. -/
def display : Format → String
  | .packed => "V0 (legacy packed)"
  | .delta revision => "V" ++ Text.Numeral.decimal revision.toNat ++ " (delta encoded)"
  | .dense => "V5 (dense indexed)"
  | .csv => "CSV"

end Format

end OffsetAtlas
