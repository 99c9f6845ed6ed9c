/-
OffsetAtlas.Delta.Record — entries as a stream of short records.

A record is a control byte and two fields, the identifier's and the offset's, each against the entry
before (the first against zeros). The low half of the control byte is the identifier's mode, the
high half the offset's; the topmost bit says that the offset counts in pointers, so the offset
before is divided by the pointer size and the result multiplied by it.
-/
import OffsetAtlas.Delta.Field
import OffsetAtlas.Entry

namespace OffsetAtlas.Delta

/-- The offset's field and whether it counts in pointers. -/
structure OffsetField where
  scaled : Bool
  field : Field
  deriving DecidableEq, Repr

/-! ## Writing -/

/-- An offset against the one before, in pointers where that is shorter. -/
def OffsetField.shortest (pointerSize base offset : UInt64) : OffsetField :=
  let plain := Field.shortest base offset
  let scaled := Field.shortest (base / pointerSize) (offset / pointerSize)
  if 0 < pointerSize ∧ offset % pointerSize = 0 ∧ scaled.mode.width < plain.mode.width then
    ⟨true, scaled⟩
  else ⟨false, plain⟩

/-- The control byte of a record with these two fields. -/
def control (id : Field) (offset : OffsetField) : UInt8 :=
  UInt8.ofNat (16 * (offset.field.mode.code + if offset.scaled then 8 else 0) + id.mode.code)

/-- The record of an entry that follows `before`. -/
def encodeRecord (pointerSize : UInt64) (before entry : Entry) : List UInt8 :=
  let id := Field.shortest before.id entry.id
  let offset := OffsetField.shortest pointerSize before.offset entry.offset
  control id offset :: (id.bytes ++ offset.field.bytes)

/-- The records of entries that follow `before`. -/
def encodeFrom (pointerSize : UInt64) (before : Entry) : List Entry → List UInt8
  | [] => []
  | e :: es => encodeRecord pointerSize before e ++ encodeFrom pointerSize e es

/-- The records of a list of entries, in its order. -/
def encodeRecords (pointerSize : UInt64) (entries : List Entry) : List UInt8 :=
  encodeFrom pointerSize ⟨0, 0⟩ entries

/-! ## Reading -/

/-- Reads one field, unless its mode does not exist. -/
def decodeField (code : Nat) (base : UInt64) (control : UInt8) (record : Nat) :
    Attempt Reader UInt64 :=
  match Mode.ofCode? code with
  | some mode => mode.decode base
  | none => Attempt.fail (.unhandledControl control record)

/-- Reads an offset that counts in pointers. -/
def decodeScaled (pointerSize : UInt64) (code : Nat) (base : UInt64) (control : UInt8)
    (record : Nat) : Attempt Reader UInt64 :=
  if pointerSize = 0 then Attempt.fail (.malformedHeader (.unscalable record))
  else (· * pointerSize) <$> decodeField code (base / pointerSize) control record

/-- Reads record number `record`, the one behind `before`. -/
def decodeRecord (pointerSize : UInt64) (record : Nat) (before : Entry) : Attempt Reader Entry := do
  let control ← Reader.u8 "control byte"
  let low := control.toNat % 16
  let high := control.toNat / 16
  let id ← decodeField low before.id control record
  let offset ←
    if 8 ≤ high then decodeScaled pointerSize (high - 8) before.offset control record
    else decodeField high before.offset control record
  return ⟨id, offset⟩

/-- Reads `count` records from number `record` on; `done` holds the entries so far, last first. -/
def decodeFrom (pointerSize : UInt64) :
    (count record : Nat) → (before : Entry) → (done : List Entry) → Attempt Reader (List Entry)
  | 0, _, _, done => fun r => (.ok done.reverse, r)
  | count + 1, record, before, done => fun r =>
    match decodeRecord pointerSize record before r with
    | (.ok e, r) => decodeFrom pointerSize count (record + 1) e (e :: done) r
    | (.error e, r) => (.error e, r)

/-- Reads `count` records, in file order. -/
def decodeRecords (pointerSize : UInt64) (count : Nat) : Attempt Reader (List Entry) :=
  decodeFrom pointerSize count 0 ⟨0, 0⟩ []

end OffsetAtlas.Delta
