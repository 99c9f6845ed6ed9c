/-
OffsetAtlas.Proofs.Delta.Header — a delta file's header reads back as it was written.

What comes back differs from what was written in one place: a name ends at its first NUL. A header
that does not fit is never written, so the statements are about headers that fit;
`write?_reads_back` says which these are, and puts both halves together.
-/
import Mathlib.Algebra.Group.Nat.Defs
import OffsetAtlas.Delta.Header
import OffsetAtlas.Proofs.Bytes.Reading
import OffsetAtlas.Proofs.Text.Utf8

namespace OffsetAtlas.Delta

open Text

namespace Header

/-- The header as it is read back. -/
def clipped (h : Header) : Header :=
  { h with name := Utf8.upToNul h.name }

@[simp] theorem length_bytes (h : Header) :
    h.bytes.length = 28 + (Utf8.encode h.name).length := by
  simp [bytes, Version.components]
  omega

/-- A header that fits is read back, and the reader stops right behind it. -/
theorem read_bytes {h : Header} (hfits : h.Fits) (rest : List UInt8) (position : Nat) :
    read ⟨position, h.bytes ++ rest⟩
      = (.ok h.clipped, ⟨position + h.bytes.length, rest⟩) := by
  obtain ⟨hname, hpointer, hcount⟩ := hfits
  have hlength : (Utf8.encode h.name).length < UInt32.size :=
    Nat.lt_of_le_of_lt hname (by decide)
  have hbytes := Reader.bytes_append "name" (Utf8.encode h.name)
  have hclip := Utf8.untilNul_encode h.name 0
  rw [List.replicate_zero, List.append_nil] at hclip
  rw [length_bytes]
  simp only [bytes, List.append_assoc]
  rw [read, Attempt.bind_of_ok (Reader.version_write _ _ _),
    Attempt.bind_of_ok (Reader.u32_write hlength _ _ _)]
  simp only [UInt32.toNat_ofNat_of_lt' hlength, if_neg (Nat.not_lt.2 hname)]
  rw [Attempt.bind_of_ok (hbytes _ _), Attempt.bind_of_ok (Reader.count_write hpointer _ _ _),
    Attempt.bind_of_ok (Reader.count_write hcount _ _ _)]
  simp only [Attempt.pure_apply, hclip, UInt64.ofNat_toNat]
  have hend : position + 16 + 4 + (Utf8.encode h.name).length + 4 + 4
      = position + (28 + (Utf8.encode h.name).length) := by omega
  rw [hend]
  rfl

theorem clipped_eq_self_iff {h : Header} : h.clipped = h ↔ '\x00' ∉ h.name.toList := by
  rw [← Utf8.upToNul_eq_self_iff]
  constructor
  · exact congrArg Header.name
  · intro hname
    cases h
    exact congrArg (Header.mk _ · _ _) hname

/-- A header fits unless its name or one of its counts is too large. -/
theorem not_fits_iff {h : Header} :
    ¬ h.Fits ↔ 63 < h.name.utf8ByteSize ∨ 2 ^ 31 - 1 < h.pointerSize.toNat
      ∨ 2 ^ 31 - 1 < h.addressCount := by
  have hlimit : countLimit = 2 ^ 31 := rfl
  have hlength : maxNameLength = 63 := rfl
  rw [Fits, Utf8.length_encode, hlimit, hlength]
  omega

/-- **Round trip of the header.** It is not written exactly if its name is longer than 63 bytes, or
its pointer size or its count does not fit a signed word of 32 bits. What is written is read back,
wherever it stands and whatever follows it, with the name up to its first NUL; so a name without one
comes back as it was. -/
theorem write?_reads_back (h : Header) :
    (h.write? = none ↔ 63 < h.name.utf8ByteSize ∨ 2 ^ 31 - 1 < h.pointerSize.toNat
        ∨ 2 ^ 31 - 1 < h.addressCount)
      ∧ (∀ bytes, h.write? = some bytes → ∀ position rest,
        Attempt.on ⟨position, bytes ++ rest⟩ read
          = (.ok h.clipped, ⟨position + bytes.length, rest⟩))
      ∧ (h.clipped = h ↔ '\x00' ∉ h.name.toList) := by
  refine ⟨?refused, ?written, clipped_eq_self_iff⟩
  case refused =>
    rw [← not_fits_iff, write?]
    split
    · next hfits => simp [hfits]
    · next hfits => simp [hfits]
  case written =>
    intro bytes hbytes position rest
    rw [write?, Option.ite_none_right_eq_some] at hbytes
    obtain ⟨hfits, hbytes⟩ := hbytes
    cases hbytes
    exact read_bytes hfits rest position

/-- A header whose name has a character of two bytes, a NUL and something behind it. -/
def accented : Header :=
  ⟨⟨1, 10, 163, 0⟩, "é\x00x", 8, 3⟩

theorem write?_reads_back_accented :
    ∃ bytes, accented.write? = some bytes ∧ bytes.length = 32
      ∧ ∀ rest, Attempt.on ⟨4, bytes ++ rest⟩ read
        = (.ok ⟨⟨1, 10, 163, 0⟩, "é", 8, 3⟩, ⟨36, rest⟩) := by
  have hwritten : accented.write? = some accented.bytes := rfl
  have hclipped : accented.clipped = ⟨⟨1, 10, 163, 0⟩, "é", 8, 3⟩ := by decide
  obtain ⟨-, hread, -⟩ := write?_reads_back accented
  refine ⟨accented.bytes, hwritten, rfl, fun rest => ?_⟩
  rw [← hclipped]
  exact hread _ hwritten 4 rest

end Header

end OffsetAtlas.Delta
