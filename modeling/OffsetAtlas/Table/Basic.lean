/-
OffsetAtlas.Table.Basic — the two tables that a database can be.

An ordered table holds entries, ascending by identifier if the file says the truth, and looks
identifiers up by bisection; of entries with one identifier the last is found. A dense table holds
one slot for each identifier from zero on, and a zero slot means that there is no offset. Both read
the block they lie in and copy nothing.
-/
import OffsetAtlas.Entry
import OffsetAtlas.Table.Bisection
import OffsetAtlas.Table.Span

namespace OffsetAtlas

/-! ## Ordered tables -/

/-- Entries to be searched by bisection. -/
structure OrderedTable where
  span : Span Entry.size

namespace OrderedTable

/-- The table of `length` entries in a block. -/
def of (block : ByteArray) (start length : Nat) : Except Failure OrderedTable :=
  (Span.of Entry.size "mapping entries" block start length).map OrderedTable.mk

/-- How many entries there are. -/
def length (t : OrderedTable) : Nat :=
  t.span.length

/-- The entry at a place. -/
def entry (t : OrderedTable) (i : Fin t.length) : Entry :=
  Entry.ofBytes (t.span.item i)

/-- The entries as they are stored. -/
def entries (t : OrderedTable) : List Entry :=
  List.ofFn t.entry

/-- How many entries the bisection puts at or before an identifier. -/
def rank (t : OrderedTable) (id : UInt64) : Nat :=
  partitionPoint fun i : Fin t.length => decide ((t.entry i).id ≤ id)

/-- The offset of an identifier. -/
def find (t : OrderedTable) (id : UInt64) : Option UInt64 :=
  match h : t.rank id with
  | 0 => none
  | i + 1 =>
    let found := t.entry ⟨i, by
      have := partitionPoint_le fun i : Fin t.length => decide ((t.entry i).id ≤ id)
      simp only [rank] at h
      omega⟩
    if found.id = id then some found.offset else none

end OrderedTable

/-! ## Dense tables -/

/-- How many bytes a slot takes. -/
def slotSize : Nat := 4

/-- Offsets indexed by identifier. -/
structure DenseTable where
  span : Span slotSize

namespace DenseTable

/-- The table of `length` slots in a block. -/
def of (block : ByteArray) (start length : Nat) : Except Failure DenseTable :=
  (Span.of slotSize "offset slots" block start length).map DenseTable.mk

/-- How many slots there are. -/
def length (t : DenseTable) : Nat :=
  t.span.length

/-- A slot's value; there are only zeros behind the last slot. -/
def slot (t : DenseTable) (i : Nat) : UInt32 :=
  if h : i < t.length then UInt32.ofNat (Bytes.read (t.span.item ⟨i, h⟩)) else 0

/-- The offset of an identifier. -/
def find (t : DenseTable) (id : UInt64) : Option UInt64 :=
  let offset := t.slot id.toNat
  if offset = 0 then none else some offset.toUInt64

/-- The slots that are not zero, as entries. -/
def entries (t : DenseTable) : List Entry :=
  (List.range t.length).filterMap fun i =>
    let offset := t.slot i
    if offset = 0 then none else some ⟨UInt64.ofNat i, offset.toUInt64⟩

end DenseTable

/-! ## Either of them -/

/-- The table of a database. -/
inductive Table where
  | ordered (table : OrderedTable)
  | dense (table : DenseTable)

namespace Table

/-- An ordered table in a block. -/
def ofOrdered (block : ByteArray) (start length : Nat) : Except Failure Table :=
  (OrderedTable.of block start length).map Table.ordered

/-- A dense table in a block. -/
def ofDense (block : ByteArray) (start length : Nat) : Except Failure Table :=
  (DenseTable.of block start length).map Table.dense

/-- How many entries, or slots, the table has. -/
def length : Table → Nat
  | .ordered t => t.length
  | .dense t => t.length

/-- The offset of an identifier. -/
def find : Table → UInt64 → Option UInt64
  | .ordered t => t.find
  | .dense t => t.find

/-- The entries in the order in which they are stored. -/
def entries : Table → List Entry
  | .ordered t => t.entries
  | .dense t => t.entries

/-- The block that the table lies in. -/
def block : Table → ByteArray
  | .ordered t => t.span.block
  | .dense t => t.span.block

end Table

end OffsetAtlas
