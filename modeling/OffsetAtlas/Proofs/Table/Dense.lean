/-
OffsetAtlas.Proofs.Table.Dense — what look-ups in a dense table find.

The entries of a dense table are its slots that are not zero, each under its own number. As long as
the numbers fit a word no two of them meet, so the entries ascend strictly (`entries_ascending`) and
a look-up finds exactly what is listed (`find_eq_some_iff`). An offset of zero is in neither
(`offset_ne_zero`).
-/
import OffsetAtlas.Proofs.Table.Accepted
import OffsetAtlas.Proofs.Table.Ordered

namespace OffsetAtlas.DenseTable

variable {t : DenseTable}

/-! ## Slots -/

theorem slot_of_lt {i : Nat} (h : i < t.length) :
    t.slot i = UInt32.ofNat (Bytes.read (t.span.item ⟨i, h⟩)) :=
  dif_pos h

theorem slot_of_le {i : Nat} (h : t.length ≤ i) : t.slot i = 0 :=
  dif_neg (Nat.not_lt.2 h)

/-- Only a slot that there is can differ from zero. -/
theorem lt_of_slot_ne_zero {i : Nat} (h : t.slot i ≠ 0) : i < t.length :=
  Nat.lt_of_not_le fun hle => h (slot_of_le hle)

theorem toUInt64_ne_zero {w : UInt32} (h : w ≠ 0) : w.toUInt64 ≠ 0 := by
  intro h0
  refine h (UInt32.toNat_inj.1 ?_)
  rw [← UInt32.toNat_toUInt64, h0]
  rfl

/-! ## Entries -/

/-- A slot is listed under its number if it is not zero. -/
theorem mem_entries {e : Entry} :
    e ∈ t.entries ↔ ∃ i, t.slot i ≠ 0 ∧ e = ⟨UInt64.ofNat i, (t.slot i).toUInt64⟩ := by
  simp only [entries, List.mem_filterMap, List.mem_range]
  constructor
  · rintro ⟨i, -, hi⟩
    split at hi
    · cases hi
    · next hne =>
      cases hi
      exact ⟨i, hne, rfl⟩
  · rintro ⟨i, hne, rfl⟩
    exact ⟨i, lt_of_slot_ne_zero hne, if_neg hne⟩

theorem offset_ne_zero {e : Entry} (he : e ∈ t.entries) : e.offset ≠ 0 := by
  obtain ⟨i, hne, rfl⟩ := mem_entries.1 he
  exact toUInt64_ne_zero hne

section

variable (hwords : t.length ≤ UInt64.size)

include hwords

/-- The number of a slot survives being made a word. -/
theorem toNat_ofNat_of_slot_ne_zero {i : Nat} (h : t.slot i ≠ 0) : (UInt64.ofNat i).toNat = i :=
  UInt64.toNat_ofNat_of_lt' (Nat.lt_of_lt_of_le (lt_of_slot_ne_zero h) hwords)

theorem entries_ascending : t.entries.Pairwise fun a b => a.id < b.id := by
  rw [entries, List.pairwise_filterMap]
  refine List.Pairwise.imp ?_ List.pairwise_lt_range
  intro i j hij a ha b hb
  simp only at ha hb
  split at ha
  · cases ha
  · next hi =>
    split at hb
    · cases hb
    · next hj =>
      cases ha
      cases hb
      rw [UInt64.lt_iff_toNat_lt, toNat_ofNat_of_slot_ne_zero hwords hi,
        toNat_ofNat_of_slot_ne_zero hwords hj]
      exact hij

/-- What is found is what is listed. -/
theorem find_eq_some_iff {id offset : UInt64} :
    t.find id = some offset ↔ ⟨id, offset⟩ ∈ t.entries := by
  rw [mem_entries, find]
  constructor
  · intro h
    split at h
    · cases h
    · next hne =>
      cases h
      exact ⟨id.toNat, hne, by rw [UInt64.ofNat_toNat]⟩
  · rintro ⟨i, hne, he⟩
    cases he
    simp only [toNat_ofNat_of_slot_ne_zero hwords hne, if_neg hne]

end

end OffsetAtlas.DenseTable
