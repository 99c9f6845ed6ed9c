/-
OffsetAtlas.Proofs.Dense.RoundTrip — a dense file reads back as its header and its slots.

The header has one size whatever the name is, since zeros fill the name's field up
(`Header.length_bytes`). Behind it each slot stands at four times its number, so the table that is
made of a file has exactly the slots that were written (`slot_eq`).
-/
import OffsetAtlas.Dense
import OffsetAtlas.Proofs.Bytes.Reading
import OffsetAtlas.Proofs.Table.Ordered
import OffsetAtlas.Proofs.Text.Utf8

namespace OffsetAtlas.Dense

open Text

/-! ## Headers -/

namespace Header

variable {h : Header} {count : Nat}

/-- The header as it is read back from a file with this many slots. -/
def clipped (h : Header) (count : Nat) : Header :=
  { h with name := Utf8.upToNul h.name, offsetCount := count }

theorem length_bytes (hname : (Utf8.encode h.name).length ≤ maxNameLength) (count : Nat) :
    (h.bytes count).length = headerSize := by
  have hfield : (Utf8.encode h.name).length ≤ nameField := Nat.le_succ_of_le hname
  simp only [bytes, Version.components, List.flatMap_cons, List.flatMap_nil, List.length_append,
    Bytes.length_write, List.length_replicate, Bytes.ofUInt32, List.length_nil, headerSize]
  omega

theorem parse_eq (bs : List UInt8) : parse bs = (read ⟨0, bs⟩).1 := rfl

/-- What is read once the version and the name are known. -/
def readSizes (version : Version) (name : String) : Attempt Reader Header := do
  let pointerSize ← Reader.count "pointer size"
  let dataFormat ← Reader.i32 "data format"
  let offsetCount ← Reader.count "offset count"
  return ⟨version, name, UInt32.ofNat pointerSize, dataFormat, offsetCount⟩

/-- Whatever the sizes are, the version and the name in front of them are read back. -/
theorem read_bytes_eq (hname : (Utf8.encode h.name).length ≤ maxNameLength) (count : Nat)
    (rest : List UInt8) (position : Nat) :
    read ⟨position, h.bytes count ++ rest⟩
      = readSizes h.version (Utf8.upToNul h.name) ⟨position + 4 + 16 + nameField,
          Bytes.write 4 h.pointerSize.toNat ++ (Bytes.write 4 h.dataFormat.toUInt32.toNat
            ++ (Bytes.write 4 count ++ rest))⟩ := by
  have hclip := Utf8.untilNul_encode h.name (nameField - (Utf8.encode h.name).length)
  have hfield : (Utf8.encode h.name ++ List.replicate (nameField - (Utf8.encode h.name).length)
      (0 : UInt8)).length = nameField := by
    have : (Utf8.encode h.name).length ≤ nameField := Nat.le_succ_of_le hname
    rw [List.length_append, List.length_replicate]
    omega
  simp only [bytes, Bytes.ofUInt32]
  -- the name's field is read as a whole, so it must not fall apart into the name and the zeros
  generalize Utf8.encode h.name ++ List.replicate (nameField - (Utf8.encode h.name).length) 0
    = field at hclip hfield
  have hbytes := Reader.bytes_append "name" field
  rw [hfield] at hbytes
  simp only [List.append_assoc]
  rw [read, Attempt.bind_apply, Reader.u32_write (by decide)]
  simp only
  rw [if_neg (by decide), Attempt.bind_of_ok (Reader.version_write _ _ _),
    Attempt.bind_of_ok (hbytes _ _), hclip]
  rfl

/-- A header that fits is read back. -/
theorem read_bytes (hname : (Utf8.encode h.name).length ≤ maxNameLength)
    (hpointer : h.pointerSize.toNat < countLimit) (hcount : count < countLimit)
    (rest : List UInt8) (position : Nat) :
    read ⟨position, h.bytes count ++ rest⟩
      = (.ok (h.clipped count), ⟨position + headerSize, rest⟩) := by
  have hformat : Int32.ofNat h.dataFormat.toUInt32.toNat = h.dataFormat := by
    cases h.dataFormat
    simp [Int32.ofNat]
  rw [read_bytes_eq hname, readSizes, Attempt.bind_of_ok (Reader.count_write hpointer _ _ _),
    Attempt.bind_of_ok (Reader.i32_write h.dataFormat.toUInt32.toNat_lt _ _ _),
    Attempt.bind_of_ok (Reader.count_write hcount _ _ _)]
  simp only [Attempt.pure_apply, UInt32.ofNat_toNat, hformat]
  rfl

/-- A pointer size with its sign bit set is written like any other, and refused when it is read. -/
theorem read_bytes_negative (hname : (Utf8.encode h.name).length ≤ maxNameLength)
    (hpointer : countLimit ≤ h.pointerSize.toNat) (count : Nat) (rest : List UInt8)
    (position : Nat) :
    (read ⟨position, h.bytes count ++ rest⟩).1
      = .error (.malformedHeader (.negative "pointer size" (h.pointerSize.toNat - 2 ^ 32))) := by
  rw [read_bytes_eq hname, readSizes, Attempt.bind_of_error
    (Reader.count_write_negative hpointer h.pointerSize.toNat_lt _ _ _)]

end Header

/-! ## Slots -/

section

variable {h : Header} {slots : List UInt32} {block : ByteArray} {running : Version}

theorem length_ofUInt32 (slot : UInt32) : (Bytes.ofUInt32 slot).length = slotSize :=
  Bytes.length_write 4 _

theorem length_slotBytes (slots : List UInt32) :
    (slots.flatMap Bytes.ofUInt32).length = slots.length * slotSize := by
  induction slots with
  | nil => rfl
  | cons s slots ih =>
    rw [List.flatMap_cons, List.length_append, ih, length_ofUInt32, List.length_cons, Nat.add_mul]
    omega

/-- A slot stands behind the header at four times its number. -/
theorem slot_fileBytes (hname : (Utf8.encode h.name).length ≤ maxNameLength) {i : Nat}
    (hi : i < slots.length) :
    ((fileBytes h slots).drop (headerSize + i * slotSize)).take slotSize
      = Bytes.ofUInt32 slots[i] := by
  rw [fileBytes, ← List.drop_drop, List.drop_left' (Header.length_bytes hname _),
    flatMap_item length_ofUInt32 hi]

/-- A file with these slots, whose header can be read back. -/
structure Holds (block : ByteArray) (h : Header) (slots : List UInt32) : Prop where
  bytes : octets block = fileBytes h slots
  named : (Utf8.encode h.name).length ≤ maxNameLength
  pointing : h.pointerSize.toNat < countLimit
  counted : slots.length < countLimit

theorem Holds.headerFor (hb : Holds block h slots) :
    headerFor block h.version = .ok (h.clipped slots.length) := by
  have hfront : block.data.toList.take headerSize = h.bytes slots.length := by
    rw [← octets, hb.bytes, fileBytes, List.take_left' (Header.length_bytes hb.named _)]
  have hparse : Header.parse (h.bytes slots.length) = .ok (h.clipped slots.length) := by
    rw [← List.append_nil (h.bytes slots.length), Header.parse_eq,
      Header.read_bytes hb.named hb.pointing hb.counted]
  have hversion : (h.clipped slots.length).version = h.version := rfl
  simp only [Dense.headerFor, hfront, hparse, hversion, if_true]

theorem Holds.size (hb : Holds block h slots) :
    block.size = headerSize + slots.length * slotSize := by
  have hlength : (octets block).length = block.size := rfl
  rw [← hlength, hb.bytes, fileBytes, List.length_append, Header.length_bytes hb.named,
    length_slotBytes]

/-- The slots of a file are its table. -/
theorem Holds.ofDense (hb : Holds block h slots) :
    ∃ t : DenseTable, Table.ofDense block headerSize slots.length = .ok (.dense t)
      ∧ t.length = slots.length ∧ ∀ i, t.slot i = slots.getD i 0 := by
  have hcounted := hb.counted
  have hsmall : ¬ addressSpace ≤ headerSize + slots.length * slotSize := by
    have hlimit : countLimit = 2147483648 := rfl
    have hspace : addressSpace = 18446744073709551616 := rfl
    have hheader : headerSize = 96 := rfl
    rw [hspace, hheader, slotSize]
    omega
  have hinside : headerSize + slots.length * slotSize ≤ block.size := Nat.le_of_eq hb.size.symm
  refine ⟨⟨⟨block, headerSize, slots.length, hinside⟩⟩, ?_, rfl, fun i => ?_⟩
  · simp only [Table.ofDense, DenseTable.of, Span.of, if_neg hsmall, dif_pos hinside]
    rfl
  · rw [DenseTable.slot]
    split
    · next hi =>
      have hi : i < slots.length := hi
      rw [Span.item_eq, hb.bytes, slot_fileBytes hb.named hi, Bytes.ofUInt32,
        Bytes.read_write (slots[i].toNat_lt), UInt32.ofNat_toNat, List.getD_eq_getElem?_getD,
        List.getElem?_eq_getElem hi]
      rfl
    · next hi =>
      rw [List.getD_eq_getElem?_getD, List.getElem?_eq_none (Nat.le_of_not_lt hi)]
      rfl

end

end OffsetAtlas.Dense
