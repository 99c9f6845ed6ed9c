/-
OffsetAtlas.Proofs.Delta.RoundTrip — the records of any entries read back as those entries.

The reader keeps the same two numbers as the writer, the identifier and the offset before, so one
record is inverted for an arbitrary entry before it (`decodeRecord_encodeRecord`) and the list
follows by induction along the entries. Three things carry a record: a payload always has room in
its mode's width, the control byte gives both halves back, and an offset is written in pointers only
if it is a multiple of the pointer size, so that the multiplication of the reader undoes the
division of the writer whatever the offset before was.
-/
import OffsetAtlas.Delta.Record
import OffsetAtlas.Proofs.Bytes.Reading

namespace OffsetAtlas.Delta

/-! ## Fields -/

/-- A literal is written in a mode with room for it. -/
theorem Field.payload_literal_lt (value : UInt64) :
    (Field.literal value).payload.toNat < Bytes.capacity (Field.literal value).mode.width := by
  unfold Field.literal
  split
  · assumption
  · split
    · assumption
    · exact value.toNat_lt

/-- The payload of the shortest field has room in its mode. -/
theorem Field.payload_shortest_lt (base value : UInt64) :
    (Field.shortest base value).payload.toNat
      < Bytes.capacity (Field.shortest base value).mode.width := by
  unfold Field.shortest
  split
  · simp [Mode.width, Bytes.capacity]
  · split
    · split
      · assumption
      · split
        · assumption
        · exact Field.payload_literal_lt value
    · split
      · assumption
      · split
        · assumption
        · exact Field.payload_literal_lt value

/-- A field with room for its payload is read back and applied. -/
theorem decodeField_bytes {f : Field} (h : f.payload.toNat < Bytes.capacity f.mode.width)
    (base : UInt64) (control : UInt8) (record : Nat) (rest : List UInt8) (position : Nat) :
    decodeField f.mode.code base control record ⟨position, f.bytes ++ rest⟩
      = (.ok (f.apply base), ⟨position + f.mode.width, rest⟩) := by
  rw [decodeField, Mode.ofCode?_code]
  simp only [Mode.decode, Field.bytes]
  rw [Attempt.map_apply, Reader.word_write h]
  simp [Field.apply]

@[simp] theorem Field.length_bytes (f : Field) : f.bytes.length = f.mode.width := by
  simp [Field.bytes]

/-- The shortest field is read back as the number it was made for. -/
theorem decodeField_shortest (base value : UInt64) (control : UInt8) (record : Nat)
    (rest : List UInt8) (position : Nat) :
    decodeField (Field.shortest base value).mode.code base control record
        ⟨position, (Field.shortest base value).bytes ++ rest⟩
      = (.ok value, ⟨position + (Field.shortest base value).bytes.length, rest⟩) := by
  rw [decodeField_bytes (Field.payload_shortest_lt base value), Field.apply_shortest,
    Field.length_bytes]

/-! ## Control bytes -/

/-- What the high half of the control byte says: the mode, and eight more if it is scaled. -/
def OffsetField.code (f : OffsetField) : Nat :=
  f.field.mode.code + if f.scaled then 8 else 0

theorem OffsetField.code_lt (f : OffsetField) : f.code < 16 := by
  have := f.field.mode.code_lt
  unfold OffsetField.code
  split <;> omega

theorem toNat_control (id : Field) (offset : OffsetField) :
    (control id offset).toNat = 16 * offset.code + id.mode.code := by
  have hid := id.mode.code_lt
  have hoffset := offset.code_lt
  have hlt : 16 * offset.code + id.mode.code < UInt8.size := by
    simp only [UInt8.size]
    omega
  exact UInt8.toNat_ofNat_of_lt' hlt

theorem control_low (id : Field) (offset : OffsetField) :
    (control id offset).toNat % 16 = id.mode.code := by
  have hid := id.mode.code_lt
  rw [toNat_control]
  omega

theorem control_high (id : Field) (offset : OffsetField) :
    (control id offset).toNat / 16 = offset.code := by
  have hid := id.mode.code_lt
  rw [toNat_control]
  omega

/-! ## Offsets -/

/-- Reads an offset by the high half of its control byte. -/
def decodeOffset (pointerSize : UInt64) (high : Nat) (before : UInt64) (control : UInt8)
    (record : Nat) : Attempt Reader UInt64 :=
  if 8 ≤ high then decodeScaled pointerSize (high - 8) before control record
  else decodeField high before control record

theorem decodeOffset_scaled (pointerSize : UInt64) (f : Field) (before : UInt64) (control : UInt8)
    (record : Nat) :
    decodeOffset pointerSize (OffsetField.code ⟨true, f⟩) before control record
      = decodeScaled pointerSize f.mode.code before control record := by
  have hcode : OffsetField.code ⟨true, f⟩ = f.mode.code + 8 := rfl
  rw [decodeOffset, hcode, if_pos (Nat.le_add_left 8 _), Nat.add_sub_cancel]

theorem decodeOffset_plain (pointerSize : UInt64) (f : Field) (before : UInt64) (control : UInt8)
    (record : Nat) :
    decodeOffset pointerSize (OffsetField.code ⟨false, f⟩) before control record
      = decodeField f.mode.code before control record := by
  have hcode : OffsetField.code ⟨false, f⟩ = f.mode.code := rfl
  rw [decodeOffset, hcode, if_neg (Nat.not_le_of_lt f.mode.code_lt)]

theorem div_mul_of_mod_eq_zero {n d : UInt64} (h : n % d = 0) : n / d * d = n := by
  have hmod : n.toNat % d.toNat = 0 := by
    rw [← UInt64.toNat_mod, h]
    rfl
  have hmul : n.toNat / d.toNat * d.toNat = n.toNat :=
    Nat.div_mul_cancel (Nat.dvd_of_mod_eq_zero hmod)
  apply UInt64.toNat.inj
  rw [UInt64.toNat_mul, UInt64.toNat_div, hmul]
  exact Nat.mod_eq_of_lt n.toNat_lt

/-- The shortest offset field is read back as the offset it was made for. -/
theorem decodeOffset_shortest (pointerSize before offset : UInt64) (control : UInt8) (record : Nat)
    (rest : List UInt8) (position : Nat) :
    let f := OffsetField.shortest pointerSize before offset
    decodeOffset pointerSize f.code before control record ⟨position, f.field.bytes ++ rest⟩
      = (.ok offset, ⟨position + f.field.bytes.length, rest⟩) := by
  simp only [OffsetField.shortest]
  split
  · next hscaled =>
    obtain ⟨hpos, hmod, -⟩ := hscaled
    have hne : pointerSize ≠ 0 := by
      rintro rfl
      exact absurd hpos (by decide)
    rw [decodeOffset_scaled, decodeScaled, if_neg hne, Attempt.map_apply, decodeField_shortest]
    simp only [div_mul_of_mod_eq_zero hmod]
  · rw [decodeOffset_plain]
    exact decodeField_shortest ..

/-! ## Records -/

/-- A record read as two fields behind a control byte. -/
theorem decodeRecord_cons (pointerSize : UInt64) (record : Nat) (before : Entry) (c : UInt8)
    (rest : List UInt8) (position : Nat) :
    decodeRecord pointerSize record before ⟨position, c :: rest⟩
      = (do
          let id ← decodeField (c.toNat % 16) before.id c record
          let offset ← decodeOffset pointerSize (c.toNat / 16) before.offset c record
          return (⟨id, offset⟩ : Entry) : Attempt Reader Entry) ⟨position + 1, rest⟩ := by
  rw [decodeRecord, Attempt.bind_apply, Reader.u8_cons]
  by_cases h : 8 ≤ c.toNat / 16
  · simp only [decodeOffset, if_pos h]
  · simp only [decodeOffset, if_neg h]

/-- The record of an entry is read back behind the same entry. -/
theorem decodeRecord_encodeRecord (pointerSize : UInt64) (record : Nat) (before e : Entry)
    (rest : List UInt8) (position : Nat) :
    decodeRecord pointerSize record before ⟨position, encodeRecord pointerSize before e ++ rest⟩
      = (.ok e, ⟨position + (encodeRecord pointerSize before e).length, rest⟩) := by
  simp only [encodeRecord, List.cons_append, List.append_assoc]
  rw [decodeRecord_cons, control_low, control_high, Attempt.bind_of_ok (decodeField_shortest ..),
    Attempt.bind_of_ok (decodeOffset_shortest ..)]
  simp only [Attempt.pure_apply, List.length_cons, List.length_append]
  congr 2
  omega

/-- The records of entries behind `before` are read back behind `before`. -/
theorem decodeFrom_encodeFrom (pointerSize : UInt64) (entries : List Entry) (record : Nat)
    (before : Entry) (done : List Entry) (rest : List UInt8) (position : Nat) :
    decodeFrom pointerSize entries.length record before done
        ⟨position, encodeFrom pointerSize before entries ++ rest⟩
      = (.ok (done.reverse ++ entries),
          ⟨position + (encodeFrom pointerSize before entries).length, rest⟩) := by
  induction entries generalizing record before done position with
  | nil => simp [decodeFrom, encodeFrom]
  | cons e es ih =>
    simp only [List.length_cons, decodeFrom, encodeFrom, List.append_assoc]
    rw [decodeRecord_encodeRecord]
    simp only
    rw [ih]
    simp only [List.reverse_cons, List.append_assoc, List.singleton_append, List.length_append,
      Nat.add_assoc]

/-- **Round trip of the records.** Whatever the entries, the pointer size and the bytes behind, the
records of the entries are read back as the entries, and the reader stops right behind them. -/
theorem decodeRecords_encodeRecords (pointerSize : UInt64) (entries : List Entry)
    (rest : List UInt8) (position : Nat) :
    Attempt.on ⟨position, encodeRecords pointerSize entries ++ rest⟩
        (decodeRecords pointerSize entries.length)
      = (.ok entries, ⟨position + (encodeRecords pointerSize entries).length, rest⟩) :=
  decodeFrom_encodeFrom pointerSize entries 0 ⟨0, 0⟩ [] rest position

end OffsetAtlas.Delta
