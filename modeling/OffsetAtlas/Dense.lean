/-
OffsetAtlas.Dense — dense files: a header of fixed size and one slot for each identifier.

The header holds the tag, the version in four words, the name in a field of 64 bytes, the pointer
size, a number that says how the data came about, and the number of slots. `Header.read` refuses
other tags and negative sizes; `encode?` refuses a name and a number of slots that have no room, and
writes every pointer size.
-/
import OffsetAtlas.Bytes.Reader
import OffsetAtlas.Format
import OffsetAtlas.Table.Basic
import OffsetAtlas.Text.Utf8

namespace OffsetAtlas.Dense

open Text

/-- The width of the name's field; one byte stays for the closing NUL. -/
def nameField : Nat := maxNameLength + 1

/-- How many bytes stand in front of the slots. -/
def headerSize : Nat := 4 + 16 + nameField + 4 + 4 + 4

/-- The header of a dense file. -/
structure Header where
  version : Version
  name : String
  pointerSize : UInt32
  dataFormat : Int32
  offsetCount : Nat
  deriving DecidableEq, Repr

namespace Header

/-- Reads the header, tag included. -/
def read : Attempt Reader Header := do
  let tag ← Reader.u32 "format tag"
  if FormatTag.ofNumber? tag ≠ some .dense then Attempt.fail (.unsupportedFormat tag)
  else
    let version ← Reader.version
    let name ← Reader.bytes nameField "name"
    let pointerSize ← Reader.count "pointer size"
    let dataFormat ← Reader.i32 "data format"
    let offsetCount ← Reader.count "offset count"
    return ⟨version, Utf8.untilNul name, UInt32.ofNat pointerSize, dataFormat, offsetCount⟩

/-- The header in front of a file's bytes. -/
def parse (bs : List UInt8) : Except Failure Header :=
  (Attempt.on (Reader.ofBytes bs) read).1

/-- The header as it is stored, for this many slots. -/
def bytes (h : Header) (count : Nat) : List UInt8 :=
  let name := Utf8.encode h.name
  Bytes.write 4 5 ++ h.version.components.flatMap (fun c => Bytes.write 4 c.toNat)
    ++ (name ++ List.replicate (nameField - name.length) 0)
    ++ Bytes.ofUInt32 h.pointerSize ++ Bytes.ofUInt32 h.dataFormat.toUInt32
    ++ Bytes.write 4 count

end Header

/-- The bytes of a file with these slots; the header's own count is not looked at. -/
def fileBytes (h : Header) (slots : List UInt32) : List UInt8 :=
  h.bytes slots.length ++ slots.flatMap Bytes.ofUInt32

/-- A file with these slots, if the header can be written for them. -/
def encode? (h : Header) (slots : List UInt32) : Option (List UInt8) :=
  if (Utf8.encode h.name).length < nameField ∧ slots.length < countLimit then
    some (fileBytes h slots)
  else none

/-- The header in a block that belongs to the running version. -/
def headerFor (block : ByteArray) (running : Version) : Except Failure Header :=
  match Header.parse (block.data.toList.take headerSize) with
  | .error e => .error e
  | .ok h =>
    if h.version = running then .ok h
    else .error (.versionMismatch running h.version)

end OffsetAtlas.Dense
