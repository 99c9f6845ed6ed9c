/-
OffsetAtlas.Proofs.Table.Accepted — the tables that there can be.

A table is made of a block, a start and a length by one check. What passes the check is exactly what
lies inside the block at positions that fit a word (`Span.of_eq_ok`), so this is all that is known
of a table of unknown origin, and it is enough to tell its items from their bytes.
-/
import OffsetAtlas.Table.Basic

namespace OffsetAtlas

variable {block : ByteArray} {start length : Nat}

/-- Exactly the items that lie inside the block and the address space are accepted. -/
theorem Span.of_eq_ok {width : Nat} {what : String} {s : Span width} :
    Span.of width what block start length = .ok s
      ↔ start + length * width < addressSpace
        ∧ ∃ inside : start + length * width ≤ block.size, s = ⟨block, start, length, inside⟩ := by
  unfold Span.of
  split
  · next hlarge =>
    constructor
    · rintro ⟨⟩
    · rintro ⟨hsmall, -⟩
      exact absurd hsmall (Nat.not_lt.2 hlarge)
  · next hsmall =>
    split
    · next inside =>
      constructor
      · rintro ⟨⟩
        exact ⟨Nat.lt_of_not_le hsmall, inside, rfl⟩
      · rintro ⟨-, -, rfl⟩
        rfl
    · next outside =>
      constructor
      · rintro ⟨⟩
      · rintro ⟨-, inside, -⟩
        exact absurd inside outside

theorem except_map_eq_ok {ε α β : Type} {f : α → β} {x : Except ε α} {b : β} :
    x.map f = .ok b ↔ ∃ a, x = .ok a ∧ f a = b := by
  cases x with
  | error e => simp [Except.map]
  | ok a => simp [Except.map]

namespace Table

variable {t : Table}

theorem ofOrdered_eq_ok :
    ofOrdered block start length = .ok t
      ↔ start + length * Entry.size < addressSpace
        ∧ ∃ inside : start + length * Entry.size ≤ block.size,
          t = .ordered ⟨⟨block, start, length, inside⟩⟩ := by
  rw [ofOrdered, except_map_eq_ok]
  simp only [OrderedTable.of, except_map_eq_ok, Span.of_eq_ok]
  constructor
  · rintro ⟨-, ⟨-, ⟨hsmall, inside, rfl⟩, rfl⟩, rfl⟩
    exact ⟨hsmall, inside, rfl⟩
  · rintro ⟨hsmall, inside, rfl⟩
    exact ⟨_, ⟨_, ⟨hsmall, inside, rfl⟩, rfl⟩, rfl⟩

theorem ofDense_eq_ok :
    ofDense block start length = .ok t
      ↔ start + length * slotSize < addressSpace
        ∧ ∃ inside : start + length * slotSize ≤ block.size,
          t = .dense ⟨⟨block, start, length, inside⟩⟩ := by
  rw [ofDense, except_map_eq_ok]
  simp only [DenseTable.of, except_map_eq_ok, Span.of_eq_ok]
  constructor
  · rintro ⟨-, ⟨-, ⟨hsmall, inside, rfl⟩, rfl⟩, rfl⟩
    exact ⟨hsmall, inside, rfl⟩
  · rintro ⟨hsmall, inside, rfl⟩
    exact ⟨_, ⟨_, ⟨hsmall, inside, rfl⟩, rfl⟩, rfl⟩

end Table

end OffsetAtlas
