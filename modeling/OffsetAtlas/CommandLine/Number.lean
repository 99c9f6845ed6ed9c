/-
OffsetAtlas.CommandLine.Number — numbers and sets of identifiers as people type them.

A number is decimal, or hexadecimal behind `0x` or `0X`; white space around it is dropped, and
digits may have a plus sign in front. A set of identifiers is one number for each build, separated
by commas, and fails with its first bad number.
-/
import OffsetAtlas.Text.Numeral
import OffsetAtlas.Text.WhiteSpace

namespace OffsetAtlas.CommandLine

open Text

/-- A text that is no number, and why. -/
structure NumberFault where
  text : String
  fault : Numeral.Fault
  deriving DecidableEq, Repr

/-- The fault in words. -/
def NumberFault.message (f : NumberFault) : String :=
  "invalid number '" ++ f.text ++ "': " ++ f.fault.message

/-- The number in characters without white space around them. -/
def readNumber (cs : List Char) : Except Numeral.Fault Nat :=
  match cs with
  | '0' :: 'x' :: digits => Numeral.read 16 UInt64.size digits
  | '0' :: 'X' :: digits => Numeral.read 16 UInt64.size digits
  | digits => Numeral.read 10 UInt64.size digits

/-- A number of 64 bits. -/
def parseNumber (cs : List Char) : Except NumberFault UInt64 :=
  match readNumber (trim cs) with
  | .ok n => .ok (UInt64.ofNat n)
  | .error fault => .error ⟨String.ofList (trim cs), fault⟩

/-- One identifier for each build. -/
def parseIdSet (cs : List Char) : Except NumberFault (List UInt64) :=
  (split ',' cs).mapM parseNumber

end OffsetAtlas.CommandLine
