/-
OffsetAtlas.Delta.Header — what stands between the tag and the records of a delta file.

The header holds the module's version in four words, its name behind the name's length, the pointer
size and the number of records. `read` refuses names too long and negative sizes; `write?` refuses
what could not be read back. `encodeFile?` is a whole file of the second revision.
-/
import OffsetAtlas.Delta.Record
import OffsetAtlas.Text.Utf8

namespace OffsetAtlas.Delta

open Text

/-- The header of a delta file. -/
structure Header where
  version : Version
  name : String
  pointerSize : UInt64
  addressCount : Nat
  deriving DecidableEq, Repr

namespace Header

/-- Reads the header behind the tag. -/
def read : Attempt Reader Header := do
  let version ← Reader.version
  let nameLength ← Reader.u32 "name length"
  if maxNameLength < nameLength.toNat then
    Attempt.fail (.malformedHeader (.nameLength nameLength.toNat))
  else
    let name ← Reader.bytes nameLength.toNat "name"
    let pointerSize ← Reader.count "pointer size"
    let addressCount ← Reader.count "address count"
    return ⟨version, Utf8.untilNul name, UInt64.ofNat pointerSize, addressCount⟩

/-- A name and two counts that the header can hold. -/
def Fits (h : Header) : Prop :=
  (Utf8.encode h.name).length ≤ maxNameLength ∧ h.pointerSize.toNat < countLimit
    ∧ h.addressCount < countLimit

instance (h : Header) : Decidable h.Fits := by
  unfold Fits
  infer_instance

/-- The header as it is stored behind the tag. -/
def bytes (h : Header) : List UInt8 :=
  let name := Utf8.encode h.name
  h.version.components.flatMap (fun c => Bytes.write 4 c.toNat)
    ++ Bytes.write 4 name.length ++ name
    ++ Bytes.write 4 h.pointerSize.toNat ++ Bytes.write 4 h.addressCount

/-- The stored form of a header that fits. -/
def write? (h : Header) : Option (List UInt8) :=
  if h.Fits then some h.bytes else none

end Header

/-- The header with the number of these entries for its count. -/
def Header.counting (h : Header) (entries : List Entry) : Header :=
  { h with addressCount := entries.length }

/-- The bytes of a whole file with these entries; the header's own count is not looked at. -/
def fileBytes (h : Header) (entries : List Entry) : List UInt8 :=
  Bytes.write 4 2 ++ (h.counting entries).bytes ++ encodeRecords h.pointerSize entries

/-- A whole file with these entries, if the header can be written for them. -/
def encodeFile? (h : Header) (entries : List Entry) : Option (List UInt8) :=
  if (h.counting entries).Fits then some (fileBytes h entries) else none

end OffsetAtlas.Delta
