/-
OffsetAtlas.Packed — packed files: a count and the entries as they are used in memory.
-/
import OffsetAtlas.Bytes.Reader
import OffsetAtlas.Table.Basic

namespace OffsetAtlas.Packed

/-- How many bytes stand in front of the entries. -/
def headerSize : Nat := 8

/-- The table in a packed file's bytes. -/
def table (block : ByteArray) : Except Failure Table :=
  let start := Reader.ofBytes (block.data.toList.take headerSize)
  match Attempt.on start (Reader.u64 "entry count") with
  | (.ok count, _) => Table.ofOrdered block headerSize count.toNat
  | (.error e, _) => .error e

/-- A packed file with these entries, in their order. -/
def encode (entries : List Entry) : List UInt8 :=
  Bytes.write headerSize entries.length ++ tableBytes entries

end OffsetAtlas.Packed
