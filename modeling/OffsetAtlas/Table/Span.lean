/-
OffsetAtlas.Table.Span — equal items side by side in a block of bytes.

A span knows where its items start, how many there are and that they all lie inside the block, so
that an item below the length is read without a further check. `Span.of` is the only check there
is: it refuses counts whose size leaves the address space, and blocks too short.
-/
import OffsetAtlas.Failure

namespace OffsetAtlas

/-- Sizes and positions are below this. -/
def addressSpace : Nat := UInt64.size

/-- Items of `width` bytes each. -/
structure Span (width : Nat) where
  block : ByteArray
  start : Nat
  length : Nat
  inside : start + length * width ≤ block.size

namespace Span

variable {width : Nat}

/-- The span of `length` items, called `what` should they be missing. -/
def of (width : Nat) (what : String) (block : ByteArray) (start length : Nat) :
    Except Failure (Span width) :=
  if addressSpace ≤ start + length * width then
    .error (.malformedHeader (.countTooLarge "entry count" length))
  else if h : start + length * width ≤ block.size then .ok ⟨block, start, length, h⟩
  else .error (.truncated what (start + length * width) block.size)

/-- The last byte of an item lies inside the block. -/
theorem item_inside (s : Span width) {i k : Nat} (hi : i < s.length) (hk : k < width) :
    s.start + i * width + k < s.block.size := by
  have h : (i + 1) * width ≤ s.length * width := Nat.mul_le_mul_right _ hi
  have h' := s.inside
  rw [Nat.add_mul] at h
  omega

/-- The bytes of an item. -/
def item (s : Span width) (i : Fin s.length) : List UInt8 :=
  List.ofFn fun k : Fin width =>
    s.block.get (s.start + i.val * width + k.val) (s.item_inside i.isLt k.isLt)

end Span

end OffsetAtlas
