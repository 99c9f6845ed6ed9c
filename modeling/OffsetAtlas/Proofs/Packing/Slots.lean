/-
OffsetAtlas.Proofs.Packing.Slots — the slots of entries, and the entries in slots.

Entries can be laid out in slots exactly if every identifier has a slot below the limit of counts
and every offset is a word that is not zero (`denseSlots_isOk_iff`). Slots are written one after
another, so of entries with one identifier the last counts (`getElem?_foldl`). Where each has its
own, the slot of a listed identifier holds its offset and every other slot is zero
(`slotsOf_of_denseSlots`), which is all that the table needs: a zero slot is what it takes for no
entry (`entries_of_slots`).
-/
import Mathlib.Data.List.Perm.Basic
import OffsetAtlas.Packing
import OffsetAtlas.Proofs.Attempt.Each
import OffsetAtlas.Proofs.Table.Dense
import OffsetAtlas.Proofs.Table.Last

namespace OffsetAtlas.Packing

variable {entries : List Entry} {slots : List UInt32}

/-! ## Which entries have slots -/

/-- An offset that is a word and not zero. -/
def FitsSlot (e : Entry) : Prop :=
  1 ≤ e.offset.toNat ∧ e.offset.toNat < UInt32.size

instance (e : Entry) : Decidable (FitsSlot e) :=
  inferInstanceAs (Decidable (1 ≤ e.offset.toNat ∧ e.offset.toNat < UInt32.size))

theorem slotOf_of_fits {e : Entry} (h : FitsSlot e) : slotOf e = .ok e.offset.toUInt32 := by
  have hzero : e.offset ≠ 0 := by
    intro h0
    have := h.1
    rw [h0] at this
    exact absurd this (by decide)
  refine if_neg fun hor => ?_
  rcases hor with h0 | hlarge
  · exact hzero h0
  · exact absurd h.2 (Nat.not_lt.2 hlarge)

theorem slotOf_of_not_fits {e : Entry} (h : ¬ FitsSlot e) :
    slotOf e = .error (.malformedHeader (.offsetNotStorable e.offset e.id)) := by
  refine if_pos ?_
  by_cases hzero : e.offset = 0
  · exact .inl hzero
  · refine .inr (Nat.le_of_not_lt fun hlt => h ⟨Nat.one_le_iff_ne_zero.2 fun h0 => ?_, hlt⟩)
    exact hzero (UInt64.toNat_inj.1 h0)

theorem mapM_slotOf_of_fits (h : ∀ e ∈ entries, FitsSlot e) :
    entries.mapM slotOf = .ok (entries.map (·.offset.toUInt32)) := by
  rw [mapM_eq_ok_iff, List.forall₂_map_right_iff, List.forall₂_same]
  exact fun e he => slotOf_of_fits (h e he)

theorem fits_of_mapM_slotOf (h : entries.mapM slotOf = .ok slots) :
    ∀ e ∈ entries, FitsSlot e := by
  intro e he
  obtain ⟨word, -, hword⟩ := related_of_mem (mapM_eq_ok_iff.1 h) he
  refine Decidable.byContradiction fun hnot => ?_
  rw [slotOf_of_not_fits hnot] at hword
  cases hword

instance lawfulOrderMaxUInt64 : Std.LawfulOrderMax UInt64 where
  max_eq_or a b := by
    have hmax : max a b = if a ≤ b then b else a := rfl
    rw [hmax]
    split
    · exact .inr rfl
    · exact .inl rfl
  max_le_iff a b c := by
    have hmax : max a b = if a ≤ b then b else a := rfl
    rw [hmax]
    split
    · next h => exact ⟨fun hb => ⟨UInt64.le_trans h hb, hb⟩, fun hc => hc.2⟩
    · next h =>
      have hba : b ≤ a := (UInt64.le_total a b).resolve_left h
      exact ⟨fun ha => ⟨ha, UInt64.le_trans hba ha⟩, fun hc => hc.1⟩

/-- The slots of entries, where there are enough. -/
def slotTable (entries : List Entry) (count : Nat) : Array UInt32 :=
  entries.foldl (fun table e => table.setIfInBounds e.id.toNat e.offset.toUInt32)
    (Array.replicate count 0)

/-- What it takes to lay entries out in slots. -/
def Storable (entries : List Entry) : Prop :=
  ∀ e ∈ entries, e.id.toNat + 1 < countLimit ∧ FitsSlot e

theorem foldl_zip_slots (entries : List Entry) (table : Array UInt32) :
    (entries.zip (entries.map (·.offset.toUInt32))).foldl (fun (table : Array UInt32) pair =>
        table.setIfInBounds pair.1.id.toNat pair.2) table
      = entries.foldl (fun table e => table.setIfInBounds e.id.toNat e.offset.toUInt32) table := by
  induction entries generalizing table with
  | nil => rfl
  | cons e es ih => exact ih _

theorem denseSlots_of_storable (h : Storable entries) :
    ∃ count < countLimit, (∀ e ∈ entries, e.id.toNat < count)
      ∧ denseSlots entries = .ok (slotTable entries count).toList := by
  unfold denseSlots
  cases hmax : (entries.map Entry.id).max? with
  | none =>
    obtain rfl : entries = [] := List.map_eq_nil_iff.1 (List.max?_eq_none_iff.1 hmax)
    exact ⟨0, by decide, by simp, rfl⟩
  | some last =>
    obtain ⟨hmem, hle⟩ := List.max?_eq_some_iff.1 hmax
    obtain ⟨e, he, rfl⟩ := List.mem_map.1 hmem
    refine ⟨e.id.toNat + 1, (h e he).1, fun e' he' => ?_, ?_⟩
    · exact Nat.lt_succ_of_le (UInt64.le_iff_toNat_le.1 (hle _ (List.mem_map_of_mem he')))
    · simp only [if_neg (Nat.not_le.2 (h e he).1), mapM_slotOf_of_fits fun e he => (h e he).2]
      simp only [Except.map, foldl_zip_slots]
      rfl

theorem storable_of_denseSlots (h : denseSlots entries = .ok slots) : Storable entries := by
  unfold denseSlots at h
  cases hmax : (entries.map Entry.id).max? with
  | none =>
    obtain rfl : entries = [] := List.map_eq_nil_iff.1 (List.max?_eq_none_iff.1 hmax)
    simp [Storable]
  | some last =>
    obtain ⟨-, hle⟩ := List.max?_eq_some_iff.1 hmax
    rw [hmax] at h
    simp only at h
    split at h
    · cases h
    · next hlast =>
      cases hm : entries.mapM slotOf with
      | error x =>
        rw [hm] at h
        cases h
      | ok words =>
        intro e he
        have hid := UInt64.le_iff_toNat_le.1 (hle _ (List.mem_map_of_mem (f := Entry.id) he))
        exact ⟨by omega, fits_of_mapM_slotOf hm e he⟩

/-! ## What the slots hold -/

section

variable {table : Array UInt32}

/-- Entries change no slot but their own. -/
theorem getElem?_foldl_of_ne {i : Nat} (h : ∀ e ∈ entries, e.id.toNat ≠ i) :
    (entries.foldl (fun table e => table.setIfInBounds e.id.toNat e.offset.toUInt32) table)[i]?
      = table[i]? := by
  induction entries generalizing table with
  | nil => rfl
  | cons e es ih =>
    rw [List.foldl_cons, ih fun e he => h e (List.mem_cons_of_mem _ he),
      Array.getElem?_setIfInBounds_ne (h e List.mem_cons_self)]

/-- The slot of an identifier holds the offset of its last entry, or what it held before. -/
theorem getElem?_foldl {id : UInt64} (hroom : id.toNat < table.size) :
    (entries.foldl (fun table e => table.setIfInBounds e.id.toNat e.offset.toUInt32)
        table)[id.toNat]?
      = ((lastOf entries id).map (·.offset.toUInt32)).or table[id.toNat]? := by
  induction entries generalizing table with
  | nil => rfl
  | cons e es ih =>
    rw [List.foldl_cons, ih (by simpa using hroom), lastOf_cons]
    by_cases hid : e.id = id
    · subst hid
      rw [if_pos rfl, Array.getElem?_setIfInBounds_self_of_lt hroom,
        Array.getElem?_eq_getElem hroom]
      cases lastOf es e.id with
      | none => rfl
      | some last => rfl
    · rw [if_neg hid, Option.or_none,
        Array.getElem?_setIfInBounds_ne fun h => hid (UInt64.toNat_inj.1 h)]

end

theorem size_slotTable (entries : List Entry) (count : Nat) :
    (slotTable entries count).size = count := by
  have key : ∀ table : Array UInt32, (entries.foldl (fun table e =>
      table.setIfInBounds e.id.toNat e.offset.toUInt32) table).size = table.size := by
    induction entries with
    | nil => intro table; rfl
    | cons e es ih =>
      intro table
      rw [List.foldl_cons, ih, Array.size_setIfInBounds]
  rw [slotTable, key, Array.size_replicate]

/-- Slots of these entries: a listed identifier has its offset, and no other slot has one. -/
structure SlotsOf (entries : List Entry) (slots : List UInt32) : Prop where
  counted : slots.length < countLimit
  fits : ∀ e ∈ entries, FitsSlot e
  inside : ∀ e ∈ entries, e.id.toNat < slots.length
  listed : ∀ e ∈ entries, slots.getD e.id.toNat 0 = e.offset.toUInt32
  unlisted : ∀ i, (∀ e ∈ entries, e.id.toNat ≠ i) → slots.getD i 0 = 0

/-- The slots that are made of entries, one identifier each, are the slots of these entries. -/
theorem slotsOf_of_denseSlots (hsorted : entries.Pairwise fun a b => a.id < b.id)
    (hslots : denseSlots entries = .ok slots) : SlotsOf entries slots := by
  have h := storable_of_denseSlots hslots
  obtain ⟨count, hcount, hinside, htable⟩ := denseSlots_of_storable h
  obtain rfl := Except.ok.inj (htable.symm.trans hslots)
  have hlength : (slotTable entries count).toList.length = count :=
    size_slotTable entries count
  refine ⟨Nat.lt_of_le_of_lt (Nat.le_of_eq hlength) hcount, fun e he => (h e he).2,
    fun e he => Nat.lt_of_lt_of_eq (hinside e he) hlength.symm, fun e he => ?_, fun i hi => ?_⟩
  · rw [List.getD_eq_getElem?_getD, Array.getElem?_toList, slotTable,
      getElem?_foldl (by simpa using hinside e he), (lastOf_eq_some_iff_mem hsorted).2 he]
    rfl
  · rw [List.getD_eq_getElem?_getD, Array.getElem?_toList, slotTable, getElem?_foldl_of_ne hi,
      Array.getElem?_replicate]
    split
    · rfl
    · rfl

theorem denseSlots_isOk_iff :
    (∃ slots, denseSlots entries = .ok slots) ↔ Storable entries := by
  constructor
  · rintro ⟨slots, hslots⟩
    exact storable_of_denseSlots hslots
  · intro h
    obtain ⟨count, -, -, hslots⟩ := denseSlots_of_storable h
    exact ⟨_, hslots⟩

/-! ## The table of slots -/

/-- A word that was cut from an offset within its range is that offset. -/
theorem toUInt64_toUInt32 {e : Entry} (h : FitsSlot e) :
    e.offset.toUInt32 ≠ 0 ∧ e.offset.toUInt32.toUInt64 = e.offset := by
  have hmod : e.offset.toUInt32.toNat = e.offset.toNat := by
    rw [UInt64.toNat_toUInt32]
    exact Nat.mod_eq_of_lt h.2
  refine ⟨fun h0 => ?_, ?_⟩
  · have hpos := h.1
    rw [h0] at hmod
    rw [← hmod] at hpos
    exact absurd hpos (by decide)
  · rw [← UInt64.toNat_inj, UInt32.toNat_toUInt64, hmod]

section

variable {t : DenseTable} (hs : SlotsOf entries slots) (hlength : t.length = slots.length)
  (hslot : ∀ i, t.slot i = slots.getD i 0)

include hs hslot

theorem find_listed {e : Entry} (he : e ∈ entries) : t.find e.id = some e.offset := by
  obtain ⟨hne, hword⟩ := toUInt64_toUInt32 (hs.fits e he)
  rw [DenseTable.find, hslot, hs.listed e he]
  simp only [if_neg hne, hword]

theorem find_unlisted {id : UInt64} (h : ∀ e ∈ entries, e.id ≠ id) : t.find id = none := by
  rw [DenseTable.find, hslot, hs.unlisted _ fun e he hid => h e he (UInt64.toNat_inj.1 hid)]
  rfl

theorem mem_entries_iff (e : Entry) : e ∈ t.entries ↔ e ∈ entries := by
  simp only [DenseTable.mem_entries, hslot]
  constructor
  · rintro ⟨i, hne, rfl⟩
    -- a slot that is not zero belongs to an entry
    have hlisted : ∃ e ∈ entries, e.id.toNat = i := by
      refine Classical.byContradiction fun hnone => hne (hs.unlisted i fun e he hid => ?_)
      exact hnone ⟨e, he, hid⟩
    obtain ⟨e, he, rfl⟩ := hlisted
    rw [hs.listed e he, (toUInt64_toUInt32 (hs.fits e he)).2, UInt64.ofNat_toNat]
    exact he
  · intro he
    obtain ⟨hne, hword⟩ := toUInt64_toUInt32 (hs.fits e he)
    refine ⟨e.id.toNat, ?_, ?_⟩
    · rw [hs.listed e he]
      exact hne
    · rw [hs.listed e he, hword, UInt64.ofNat_toNat]

include hlength

/-- The slots that are not zero are the entries. -/
theorem entries_of_slots (hsorted : entries.Pairwise fun a b => a.id < b.id) :
    t.entries = entries := by
  have hwords : t.length ≤ UInt64.size := by
    rw [hlength]
    exact Nat.le_of_lt (Nat.lt_trans hs.counted (by decide))
  have hascending := DenseTable.entries_ascending hwords
  have hperm : t.entries.Perm entries :=
    (List.perm_ext_iff_of_nodup (nodup_of_ascending hascending) (nodup_of_ascending hsorted)).2
      (mem_entries_iff hs hslot)
  refine hperm.eq_of_pairwise ?_ hascending hsorted
  intro a b _ _ hab hba
  exact absurd hab (UInt64.lt_asymm hba)

end

end OffsetAtlas.Packing
