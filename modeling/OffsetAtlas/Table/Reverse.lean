/-
OffsetAtlas.Table.Reverse — from offsets back to identifiers.

The index holds the entries that a look-up can find, sorted by offset and then by identifier, so
that the first entry with an offset has the smallest identifier there.
-/
import OffsetAtlas.Table.Basic

namespace OffsetAtlas

/-- One more entry in front; the next entry hides it if it has the same identifier. -/
def keepLast (e : Entry) (kept : List Entry) : List Entry :=
  match kept with
  | [] => [e]
  | next :: _ => if e.id = next.id then kept else e :: kept

/-- Of neighbours with one identifier, the last. -/
def lastOfEach (entries : List Entry) : List Entry :=
  entries.foldr keepLast []

/-- Whether an entry comes no later than another, by offset and then by identifier. -/
def Entry.offsetOrder (a b : Entry) : Bool :=
  decide (a.offset < b.offset ∨ a.offset = b.offset ∧ a.id ≤ b.id)

/-- The entries of a table by offset. -/
structure OffsetIndex where
  entries : Array Entry

namespace OffsetIndex

/-- The index of what look-ups in a table can find. -/
def build (t : Table) : OffsetIndex :=
  ⟨((lastOfEach t.entries).mergeSort Entry.offsetOrder).toArray⟩

/-- How many entries the index has. -/
def length (x : OffsetIndex) : Nat :=
  x.entries.size

/-- How many entries lie below an offset. -/
def below (x : OffsetIndex) (offset : UInt64) : Nat :=
  partitionPoint fun i : Fin x.entries.size => decide (x.entries[i].offset < offset)

/-- How many entries lie at or below an offset. -/
def upTo (x : OffsetIndex) (offset : UInt64) : Nat :=
  partitionPoint fun i : Fin x.entries.size => decide (x.entries[i].offset ≤ offset)

/-- The smallest identifier with exactly this offset. -/
def idFor (x : OffsetIndex) (offset : UInt64) : Option UInt64 :=
  match x.entries[x.below offset]? with
  | some e => if e.offset = offset then some e.id else none
  | none => none

/-- The smallest identifier at the greatest offset not above this one, and the distance to it. -/
def containing (x : OffsetIndex) (offset : UInt64) : Option (UInt64 × UInt64) :=
  match x.upTo offset with
  | 0 => none
  | last + 1 =>
    match x.entries[last]? with
    | none => none
    | some e =>
      match x.entries[x.below e.offset]? with
      | none => none
      | some first => some (first.id, offset - e.offset)

end OffsetIndex

end OffsetAtlas
