/-
OffsetAtlas.Entry — one fact of a database: an identifier and where it lies in the module.

Ordered tables store an entry as sixteen bytes, identifier first (`Entry.bytes`), and
`ofBytes_bytes` says that they are read back.
-/
import OffsetAtlas.Bytes.LittleEndian

namespace OffsetAtlas

/-- An identifier and its offset from the base of the module. -/
structure Entry where
  id : UInt64
  offset : UInt64
  deriving DecidableEq, Repr, Inhabited

namespace Entry

/-- How many bytes an entry takes. -/
def size : Nat := 16

/-- The stored form of an entry. -/
def bytes (e : Entry) : List UInt8 :=
  Bytes.ofUInt64 e.id ++ Bytes.ofUInt64 e.offset

/-- The entry stored in sixteen bytes. -/
def ofBytes (bs : List UInt8) : Entry :=
  ⟨UInt64.ofNat (Bytes.read (bs.take 8)), UInt64.ofNat (Bytes.read (bs.drop 8))⟩

@[simp] theorem length_bytes (e : Entry) : e.bytes.length = size := by
  simp [bytes, Bytes.ofUInt64, size]

/-- A stored entry is read back. -/
theorem ofBytes_bytes (e : Entry) : ofBytes e.bytes = e := by
  have hid : e.id.toNat < Bytes.capacity 8 := e.id.toNat_lt
  have hoffset : e.offset.toNat < Bytes.capacity 8 := e.offset.toNat_lt
  simp [ofBytes, bytes, Bytes.ofUInt64, List.take_left', List.drop_left', Bytes.read_write hid,
    Bytes.read_write hoffset]

end Entry

/-- The stored form of a table: its entries one after another. -/
def tableBytes (entries : List Entry) : List UInt8 :=
  entries.flatMap Entry.bytes

/-- Entries ascending by identifier; equal identifiers keep their order. -/
def sortById (entries : List Entry) : List Entry :=
  entries.mergeSort fun a b => decide (a.id ≤ b.id)

end OffsetAtlas
