/-
OffsetAtlas.Packing — writing entries as a binary file.

`pack` makes the bytes of a file in one of three layouts, or says why the entries, the name or the
pointer size do not fit it. Whatever it accepts, the encoders accept too. `packCsv` does so for a
file of rows and writes nothing unless everything fits.
-/
import OffsetAtlas.Csv.Parse
import OffsetAtlas.Delta.Header
import OffsetAtlas.Dense
import OffsetAtlas.Host
import OffsetAtlas.Packed

namespace OffsetAtlas

open Text.Numeral (decimal)

/-- The layouts that can be written. -/
inductive PackFormat where
  | packed
  | delta
  | dense
  deriving DecidableEq, Repr

/-- The layout as the log names it. -/
def PackFormat.title : PackFormat → String
  | .packed => "Legacy"
  | .delta => "Delta"
  | .dense => "Dense"

/-- What a file is to say about itself. -/
structure PackOptions where
  format : PackFormat
  version : Version
  name : String
  pointerSize : UInt32
  deriving DecidableEq, Repr

namespace PackOptions

/-- The header of a delta file. -/
def deltaHeader (o : PackOptions) : Delta.Header :=
  ⟨o.version, o.name, o.pointerSize.toUInt64, 0⟩

/-- The header of a dense file. -/
def denseHeader (o : PackOptions) : Dense.Header :=
  ⟨o.version, o.name, o.pointerSize, 0, 0⟩

end PackOptions

namespace Packing

/-! ## Slots -/

/-- The slot of an entry: its offset, if that is not zero and fits. -/
def slotOf (e : Entry) : Except Failure UInt32 :=
  if e.offset = 0 ∨ UInt32.size ≤ e.offset.toNat then
    .error (.malformedHeader (.offsetNotStorable e.offset e.id))
  else .ok e.offset.toUInt32

/-- The slots up to the greatest identifier; of entries with one identifier the last counts. -/
def denseSlots (entries : List Entry) : Except Failure (List UInt32) :=
  match (entries.map Entry.id).max? with
  | none => .ok []
  | some last =>
    if countLimit ≤ last.toNat + 1 then .error (.malformedHeader (.idTooLarge last))
    else (entries.mapM slotOf).map fun slots =>
      ((entries.zip slots).foldl (fun (table : Array UInt32) pair =>
        table.setIfInBounds pair.1.id.toNat pair.2) (Array.replicate (last.toNat + 1) 0)).toList

/-! ## Files -/

/-- Whether the name and the pointer size fit every header. -/
def checkOptions (o : PackOptions) : Except Failure Unit :=
  if maxNameLength < (Text.Utf8.encode o.name).length then
    .error (.malformedHeader (.nameTooLong o.name))
  else if countLimit ≤ o.pointerSize.toNat then
    .error (.malformedHeader (.pointerSizeTooLarge o.pointerSize.toNat))
  else .ok ()

/-- The bytes of a file with these entries. -/
def pack (entries : List Entry) (o : PackOptions) : Except Failure (List UInt8) :=
  match checkOptions o with
  | .error e => .error e
  | .ok () =>
    match o.format with
    | .packed => .ok (Packed.encode entries)
    | .delta =>
      if countLimit ≤ entries.length then .error (.malformedHeader (.tooManyEntries entries.length))
      else .ok (Delta.fileBytes o.deltaHeader entries)
    | .dense => (denseSlots entries).map fun slots => Dense.fileBytes o.denseHeader slots

/-- Writes the entries of a file of rows on a device, and answers how many there are. -/
def packCsvOn (device : Disk.Device) (input output : Path) (o : PackOptions) : HostM Nat := do
  let source ← Host.ask fun d => (d.read input).mapError (.notOpened input)
  let parsed := Csv.parse source.data.toList
  Host.noteAll parsed.notices
  if parsed.entries.isEmpty then Attempt.fail (.emptyCsv input)
  else
    let bytes ← Attempt.ofExcept (pack parsed.entries o)
    Host.overwriteOn device output ⟨bytes.toArray⟩
    Host.note (.info ("Packed " ++ decimal parsed.entries.length ++ " entries ("
      ++ decimal parsed.report.invalid ++ " invalid, " ++ decimal parsed.report.duplicates
      ++ " duplicate rows) into " ++ output.text ++ " (" ++ o.format.title ++ ", "
      ++ decimal bytes.length ++ " bytes)"))
    return parsed.entries.length

/-- Writes the entries of a file of rows on a device that takes all bytes. -/
def packCsv (input output : Path) (o : PackOptions) : HostM Nat :=
  packCsvOn .sound input output o

end Packing

end OffsetAtlas
