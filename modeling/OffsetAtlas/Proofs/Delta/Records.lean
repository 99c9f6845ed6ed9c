/-
OffsetAtlas.Proofs.Delta.Records — what is stored in a stream, apart from what it says.

A record is read in two steps that have nothing to do with each other. What is stored are two fields
behind a control byte, whatever the entry before is; what they say is worked out from that entry,
and no byte is read for it. So a whole stream can be read first and worked out afterwards
(`decodeFrom_eq`). Facts about bytes are proved of the first step, which computes nothing, and facts
about numbers of the second.
-/
import OffsetAtlas.Proofs.Delta.RoundTrip

namespace OffsetAtlas.Delta

/-- The two fields behind a control byte. -/
structure Record where
  id : Field
  offset : OffsetField
  deriving DecidableEq, Repr

/-! ## What is stored -/

/-- Reads a field as it is stored, unless its mode does not exist. -/
def readField (code : Nat) (control : UInt8) (record : Nat) : Attempt Reader Field :=
  match Mode.ofCode? code with
  | some mode => (fun n => ⟨mode, UInt64.ofNat n⟩) <$> Reader.word mode.width mode.label
  | none => Attempt.fail (.unhandledControl control record)

/-- Reads an offset's field by the high half of its control byte. -/
def readOffset (pointerSize : UInt64) (high : Nat) (control : UInt8) (record : Nat) :
    Attempt Reader OffsetField :=
  if 8 ≤ high then
    if pointerSize = 0 then Attempt.fail (.malformedHeader (.unscalable record))
    else OffsetField.mk true <$> readField (high - 8) control record
  else OffsetField.mk false <$> readField high control record

/-- Reads record number `record` as it is stored. -/
def readRecord (pointerSize : UInt64) (record : Nat) : Attempt Reader Record := do
  let control ← Reader.u8 "control byte"
  let id ← readField (control.toNat % 16) control record
  let offset ← readOffset pointerSize (control.toNat / 16) control record
  return ⟨id, offset⟩

/-- Reads `count` records from number `record` on. -/
def readRecords (pointerSize : UInt64) : (count record : Nat) → Attempt Reader (List Record)
  | 0, _ => pure []
  | count + 1, record => do
    let first ← readRecord pointerSize record
    let others ← readRecords pointerSize count (record + 1)
    return first :: others

/-! ## What it says -/

/-- The offset that a field makes of the one before. -/
def OffsetField.apply (pointerSize : UInt64) (f : OffsetField) (before : UInt64) : UInt64 :=
  if f.scaled then f.field.apply (before / pointerSize) * pointerSize else f.field.apply before

/-- The entry that a record makes of the one before. -/
def Record.entry (pointerSize : UInt64) (before : Entry) (r : Record) : Entry :=
  ⟨r.id.apply before.id, r.offset.apply pointerSize before.offset⟩

/-- The entries that records make, each of the one before it. -/
def entriesAfter (pointerSize : UInt64) : (before : Entry) → List Record → List Entry
  | _, [] => []
  | before, r :: rs =>
    r.entry pointerSize before :: entriesAfter pointerSize (r.entry pointerSize before) rs

/-- As many records are read as were asked for. -/
theorem length_readRecords {pointerSize : UInt64} {count record : Nat} {rs : List Record}
    {r t : Reader} (h : readRecords pointerSize count record r = (.ok rs, t)) :
    rs.length = count := by
  induction count generalizing record rs r with
  | zero =>
    cases h
    rfl
  | succ count ih =>
    obtain ⟨first, s, -, h⟩ := Attempt.bind_eq_ok.1 h
    obtain ⟨others, u, hothers, h⟩ := Attempt.bind_eq_ok.1 h
    cases h
    rw [List.length_cons, ih hothers]

@[simp] theorem length_entriesAfter (pointerSize : UInt64) (before : Entry) (rs : List Record) :
    (entriesAfter pointerSize before rs).length = rs.length := by
  induction rs generalizing before with
  | nil => rfl
  | cons r rs ih => rw [entriesAfter, List.length_cons, List.length_cons, ih]

/-! ## Both together -/

theorem decodeField_eq (code : Nat) (base : UInt64) (control : UInt8) (record : Nat) :
    decodeField code base control record = (·.apply base) <$> readField code control record := by
  rw [decodeField, readField]
  cases Mode.ofCode? code with
  | none => rfl
  | some mode =>
    simp only [Functor.map_map]
    rfl

theorem decodeOffset_eq (pointerSize : UInt64) (high : Nat) (before : UInt64) (control : UInt8)
    (record : Nat) :
    decodeOffset pointerSize high before control record
      = (·.apply pointerSize before) <$> readOffset pointerSize high control record := by
  rw [decodeOffset, readOffset]
  split
  · rw [decodeScaled]
    split
    · rfl
    · rw [decodeField_eq, Functor.map_map, Functor.map_map]
      rfl
  · rw [decodeField_eq, Functor.map_map]
    rfl

/-- A record is its two fields one after the other. -/
theorem decodeRecord_bind (pointerSize : UInt64) (record : Nat) (before : Entry) :
    decodeRecord pointerSize record before = (do
      let control ← Reader.u8 "control byte"
      let id ← decodeField (control.toNat % 16) before.id control record
      let offset ← decodeOffset pointerSize (control.toNat / 16) before.offset control record
      return ⟨id, offset⟩) := by
  rw [decodeRecord]
  refine bind_congr fun control => bind_congr fun id => ?_
  rw [decodeOffset]
  split <;> rfl

theorem decodeRecord_eq (pointerSize : UInt64) (record : Nat) (before : Entry) :
    decodeRecord pointerSize record before
      = Record.entry pointerSize before <$> readRecord pointerSize record := by
  rw [decodeRecord_bind, readRecord]
  simp only [decodeField_eq, decodeOffset_eq, map_eq_pure_bind, bind_assoc, pure_bind]
  rfl

/-- A stream is one record after another. -/
theorem decodeFrom_succ (pointerSize : UInt64) (count record : Nat) (before : Entry)
    (done : List Entry) :
    decodeFrom pointerSize (count + 1) record before done = (do
      let e ← decodeRecord pointerSize record before
      decodeFrom pointerSize count (record + 1) e (e :: done)) := by
  funext r
  simp only [decodeFrom, Attempt.bind_apply]
  rcases decodeRecord pointerSize record before r with ⟨e | a, t⟩
  · rfl
  · rfl

/-- **A stream is read as it is stored, and then worked out.** -/
theorem decodeFrom_eq (pointerSize : UInt64) (count record : Nat) (before : Entry)
    (done : List Entry) :
    decodeFrom pointerSize count record before done
      = (fun rs => done.reverse ++ entriesAfter pointerSize before rs)
          <$> readRecords pointerSize count record := by
  induction count generalizing record before done with
  | zero =>
    funext r
    simp [decodeFrom, readRecords, entriesAfter, Attempt.pure_apply]
  | succ count ih =>
    simp only [decodeFrom_succ, decodeRecord_eq, ih, readRecords, map_eq_pure_bind, bind_assoc,
      pure_bind, entriesAfter, List.reverse_cons, List.append_assoc, List.singleton_append]

theorem decodeRecords_eq (pointerSize : UInt64) (count : Nat) :
    decodeRecords pointerSize count
      = entriesAfter pointerSize ⟨0, 0⟩ <$> readRecords pointerSize count 0 := by
  rw [decodeRecords, decodeFrom_eq]
  rfl

/-- What was decoded was read as so many records. -/
theorem decodeRecords_eq_ok {pointerSize : UInt64} {count : Nat} {entries : List Entry}
    {r t : Reader} :
    decodeRecords pointerSize count r = (.ok entries, t)
      ↔ ∃ rs, readRecords pointerSize count 0 r = (.ok rs, t)
        ∧ entriesAfter pointerSize ⟨0, 0⟩ rs = entries := by
  rw [decodeRecords_eq]
  exact Attempt.map_eq_ok

/-- As many entries are decoded as were asked for. -/
theorem length_decodeRecords {pointerSize : UInt64} {count : Nat} {entries : List Entry}
    {r : Reader} (h : (Attempt.on r (decodeRecords pointerSize count)).1 = .ok entries) :
    entries.length = count := by
  have hrun : decodeRecords pointerSize count r
      = (.ok entries, (decodeRecords pointerSize count r).2) := Prod.ext h rfl
  obtain ⟨rs, hrs, rfl⟩ := decodeRecords_eq_ok.1 hrun
  rw [length_entriesAfter, length_readRecords hrs]

end OffsetAtlas.Delta
