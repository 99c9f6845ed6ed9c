/-
OffsetAtlas.Proofs.Table.Reverse — the way back from offsets is the way there, read backwards.

The index is made by going over the listed entries once, and forward look-ups never see that list.
What ties the two is the last entry of each identifier: it is what a look-up finds, and it is what
is left of each run of equal identifiers (`mem_lastOfEach_iff`). From there on only the order by
offset matters. The entries below an offset stand in front of all others (`lt_below_iff`), so the
first entry that is not below it is the smallest identifier there, if the offset is taken at all
(`idFor_eq_some_iff`), and the last entry at or below it has the greatest offset there is
(`containing_eq_some_iff`). Main statement: all answers of an index that was built are answers on
what look-ups find (`OffsetIndex.build_inverts`).
-/
import Mathlib.Data.Set.Card
import Mathlib.Order.Bounds.Basic
import OffsetAtlas.Proofs.Database.Listing

namespace OffsetAtlas

/-! ## The last entry of each identifier -/

section

variable {es : List Entry} {a e : Entry}

theorem lastOfEach_cons (a : Entry) (es : List Entry) :
    lastOfEach (a :: es) = keepLast a (lastOfEach es) := rfl

theorem subset_lastOfEach (es : List Entry) : lastOfEach es ⊆ es := by
  induction es with
  | nil => exact fun _ h => h
  | cons a es ih =>
    rw [lastOfEach_cons]
    cases hkept : lastOfEach es with
    | nil => exact List.cons_subset_cons a (List.nil_subset es)
    | cons next rest =>
      rw [hkept] at ih
      simp only [keepLast]
      split
      · exact List.Subset.trans ih (List.subset_cons_self a es)
      · exact List.cons_subset_cons a ih

theorem length_lastOfEach_le (es : List Entry) : (lastOfEach es).length ≤ es.length := by
  induction es with
  | nil => exact Nat.le_refl _
  | cons a es ih =>
    rw [lastOfEach_cons]
    cases hkept : lastOfEach es with
    | nil => simp [keepLast]
    | cons next rest =>
      rw [hkept] at ih
      simp only [keepLast]
      split
      · exact Nat.le_succ_of_le ih
      · exact Nat.succ_le_succ ih

/-- The first identifier stays the first one. -/
theorem head?_lastOfEach (es : List Entry) :
    (lastOfEach es).head?.map Entry.id = es.head?.map Entry.id := by
  cases es with
  | nil => rfl
  | cons a es =>
    rw [lastOfEach_cons]
    cases lastOfEach es with
    | nil => rfl
    | cons next rest =>
      simp only [keepLast]
      split
      · next hid => exact congrArg some hid.symm
      · rfl

/-- An entry is kept if none behind it has its identifier. -/
theorem lastOfEach_cons_of_last (h : ∀ x ∈ es, x.id ≠ a.id) :
    lastOfEach (a :: es) = a :: lastOfEach es := by
  rw [lastOfEach_cons]
  cases hkept : lastOfEach es with
  | nil => rfl
  | cons next rest =>
    have hmem : next ∈ es := subset_lastOfEach es (hkept ▸ List.mem_cons_self)
    exact if_neg fun hid => h next hmem hid.symm

/-- Of ascending entries the one in front is dropped if any other has its identifier, because then
the one behind it does. -/
theorem lastOfEach_cons_of_repeated (hsorted : (a :: es).Pairwise fun a b => a.id ≤ b.id)
    {x : Entry} (hx : x ∈ es) (hid : x.id = a.id) : lastOfEach (a :: es) = lastOfEach es := by
  obtain ⟨hfirst, hrest⟩ := List.pairwise_cons.1 hsorted
  obtain ⟨b, bs, rfl⟩ := List.exists_cons_of_ne_nil (List.ne_nil_of_mem hx)
  have hb : a.id = b.id := by
    refine UInt64.le_antisymm (hfirst b List.mem_cons_self) ?_
    rw [← hid]
    rcases List.mem_cons.1 hx with rfl | hx
    · exact UInt64.le_refl _
    · exact (List.pairwise_cons.1 hrest).1 x hx
  have hhead := head?_lastOfEach (b :: bs)
  rw [lastOfEach_cons a]
  cases hkept : lastOfEach (b :: bs) with
  | nil => simp [hkept] at hhead
  | cons next rest =>
    simp only [hkept, List.head?_cons, Option.map_some, Option.some.injEq] at hhead
    exact if_pos (hb.trans hhead.symm)

/-- What is left of ascending entries are the last ones of their identifiers. -/
theorem mem_lastOfEach_iff (hsorted : es.Pairwise fun a b => a.id ≤ b.id) (e : Entry) :
    e ∈ lastOfEach es ↔ lastOf es e.id = some e := by
  induction es with
  | nil => simp [lastOfEach, lastOf]
  | cons a es ih =>
    have ih := ih (List.pairwise_cons.1 hsorted).2
    rw [lastOf_cons]
    by_cases hrepeated : ∃ x ∈ es, x.id = a.id
    · obtain ⟨x, hx, hid⟩ := hrepeated
      rw [lastOfEach_cons_of_repeated hsorted hx hid, ih]
      by_cases ha : a.id = e.id
      · obtain ⟨last, hlast⟩ := lastOf_isSome hx
        rw [← ha, ← hid, hlast, Option.some_or]
      · rw [if_neg ha, Option.or_none]
    · have hothers : ∀ x ∈ es, x.id ≠ a.id := fun x hx hid => hrepeated ⟨x, hx, hid⟩
      rw [lastOfEach_cons_of_last hothers, List.mem_cons]
      by_cases ha : a.id = e.id
      · have hnone : e ∉ lastOfEach es := fun he => hothers e (subset_lastOfEach es he) ha.symm
        have hlast : lastOf es e.id = none := lastOf_eq_none_iff.2 (ha ▸ hothers)
        rw [hlast, Option.none_or, if_pos ha, Option.some.injEq]
        exact ⟨fun h => (h.resolve_right hnone).symm, fun h => Or.inl h.symm⟩
      · rw [if_neg ha, Option.or_none, ← ih]
        exact ⟨fun h => h.resolve_left fun he => ha (he ▸ rfl), Or.inr⟩

theorem lastOfEach_ascending (hsorted : es.Pairwise fun a b => a.id ≤ b.id) :
    (lastOfEach es).Pairwise fun a b => a.id < b.id := by
  induction es with
  | nil => exact List.Pairwise.nil
  | cons a es ih =>
    obtain ⟨hfirst, hrest⟩ := List.pairwise_cons.1 hsorted
    by_cases hrepeated : ∃ x ∈ es, x.id = a.id
    · obtain ⟨x, hx, hid⟩ := hrepeated
      rw [lastOfEach_cons_of_repeated hsorted hx hid]
      exact ih hrest
    · have hothers : ∀ x ∈ es, x.id ≠ a.id := fun x hx hid => hrepeated ⟨x, hx, hid⟩
      rw [lastOfEach_cons_of_last hothers]
      refine List.pairwise_cons.2 ⟨fun x hx => ?_, ih hrest⟩
      have hmem := subset_lastOfEach es hx
      exact UInt64.lt_of_le_of_ne (hfirst x hmem) (hothers x hmem).symm

end

/-! ## Tables -/

/-- A table that was made of a block, and whose identifiers do not descend. -/
inductive Table.Ascends (t : Table) : Prop where
  | dense {block : ByteArray} {start length : Nat} (made : Table.ofDense block start length = .ok t)
  | ordered {block : ByteArray} {start length : Nat}
    (made : Table.ofOrdered block start length = .ok t)
    (sorted : t.entries.Pairwise fun a b => a.id ≤ b.id)

namespace Table.Ascends

variable {t : Table} {id offset : UInt64}

theorem sorted (ht : t.Ascends) : t.entries.Pairwise fun a b => a.id ≤ b.id := by
  cases ht with
  | dense made => exact (listsDense made).ascending.imp UInt64.le_of_lt
  | ordered _ sorted => exact sorted

/-- A look-up finds the last entry with the identifier. -/
theorem find_eq_some_iff (ht : t.Ascends) :
    t.find id = some offset ↔ lastOf t.entries id = some ⟨id, offset⟩ := by
  cases ht with
  | dense made =>
    rw [(listsDense made).found]
    exact (lastOf_eq_some_iff_mem (e := ⟨id, offset⟩) (listsDense made).ascending).symm
  | ordered made sorted =>
    rw [(listsOrdered made).last sorted, Option.map_eq_some_iff]
    constructor
    · rintro ⟨e, hlast, rfl⟩
      obtain ⟨-, rfl⟩ := mem_of_lastOf hlast
      exact hlast
    · intro hlast
      exact ⟨_, hlast, rfl⟩

end Table.Ascends

/-! ## Entries by offset -/

theorem offsetOrder_trans (a b c : Entry) (hab : a.offsetOrder b = true)
    (hbc : b.offsetOrder c = true) : a.offsetOrder c = true := by
  simp only [Entry.offsetOrder, decide_eq_true_eq] at hab hbc ⊢
  rcases hab with hab | ⟨hab, hab'⟩
  · rcases hbc with hbc | ⟨hbc, -⟩
    · exact Or.inl (UInt64.lt_trans hab hbc)
    · exact Or.inl (hbc ▸ hab)
  · rw [hab]
    exact hbc.imp_right fun h => ⟨h.1, UInt64.le_trans hab' h.2⟩

theorem offsetOrder_total (a b : Entry) : (a.offsetOrder b || b.offsetOrder a) = true := by
  simp only [Entry.offsetOrder, Bool.or_eq_true, decide_eq_true_eq]
  rcases Std.lt_trichotomy a.offset b.offset with h | h | h
  · exact Or.inl (Or.inl h)
  · rcases UInt64.le_total a.id b.id with hid | hid
    · exact Or.inl (Or.inr ⟨h, hid⟩)
    · exact Or.inr (Or.inr ⟨h.symm, hid⟩)
  · exact Or.inr (Or.inl h)

namespace OffsetIndex

variable {x : OffsetIndex} {offset id : UInt64} {i j : Nat}

/-- The entries are in their order by offset and then by identifier. -/
def Sorted (x : OffsetIndex) : Prop :=
  x.entries.toList.Pairwise fun a b => a.offsetOrder b = true

theorem sorted_build (t : Table) : (build t).Sorted :=
  List.pairwise_mergeSort offsetOrder_trans offsetOrder_total _

/-- Of two entries the later one has the greater offset, or the greater identifier there. -/
theorem Sorted.order (hx : x.Sorted) (hij : i < j) (hj : j < x.entries.size) :
    x.entries[i].offset < x.entries[j].offset
      ∨ x.entries[i].offset = x.entries[j].offset ∧ x.entries[i].id ≤ x.entries[j].id := by
  have horder := List.pairwise_iff_getElem.1 hx i j (by simp; omega) (by simpa) hij
  simpa [Entry.offsetOrder] using horder

theorem Sorted.offset_le (hx : x.Sorted) (hij : i ≤ j) (hj : j < x.entries.size) :
    x.entries[i].offset ≤ x.entries[j].offset := by
  rcases Nat.lt_or_eq_of_le hij with hij | rfl
  · rcases hx.order hij hj with hlt | ⟨heq, -⟩
    · exact UInt64.le_of_lt hlt
    · exact UInt64.le_of_eq heq
  · exact UInt64.le_refl _

theorem Sorted.id_le (hx : x.Sorted) (hij : i ≤ j) (hj : j < x.entries.size)
    (hoffset : x.entries[i].offset = x.entries[j].offset) :
    x.entries[i].id ≤ x.entries[j].id := by
  rcases Nat.lt_or_eq_of_le hij with hij | rfl
  · rcases hx.order hij hj with hlt | ⟨-, hle⟩
    · exact absurd hoffset (UInt64.ne_of_lt hlt)
    · exact hle
  · exact UInt64.le_refl _

/-! ## Places in the index -/

/-- The entries below an offset stand in front of all others. -/
theorem Sorted.lt_below_iff (hx : x.Sorted) (hi : i < x.entries.size) :
    i < x.below offset ↔ x.entries[i].offset < offset := by
  have hspec := partitionPoint_spec
    (p := fun i : Fin x.entries.size => decide (x.entries[i].offset < offset))
    (fun i j hij hj => decide_eq_true
      (UInt64.lt_of_le_of_lt (hx.offset_le hij j.isLt) (of_decide_eq_true hj))) ⟨i, hi⟩
  exact hspec.symm.trans decide_eq_true_iff

/-- So do the entries at or below it. -/
theorem Sorted.lt_upTo_iff (hx : x.Sorted) (hi : i < x.entries.size) :
    i < x.upTo offset ↔ x.entries[i].offset ≤ offset := by
  have hspec := partitionPoint_spec
    (p := fun i : Fin x.entries.size => decide (x.entries[i].offset ≤ offset))
    (fun i j hij hj => decide_eq_true
      (UInt64.le_trans (hx.offset_le hij j.isLt) (of_decide_eq_true hj))) ⟨i, hi⟩
  exact hspec.symm.trans decide_eq_true_iff

theorem upTo_le (x : OffsetIndex) (offset : UInt64) : x.upTo offset ≤ x.entries.size :=
  partitionPoint_le _

/-- The identifiers with an offset. -/
def idsAt (x : OffsetIndex) (offset : UInt64) : Set UInt64 :=
  {id | (⟨id, offset⟩ : Entry) ∈ x.entries}

theorem mem_idsAt {e : Entry} (he : e ∈ x.entries) (hoffset : e.offset = offset) :
    e.id ∈ x.idsAt offset := by
  subst hoffset
  exact he

/-- Where an offset is taken, the first entry that is not below it has it. -/
theorem Sorted.entry_below (hx : x.Sorted) (h : id ∈ x.idsAt offset) :
    ∃ hb : x.below offset < x.entries.size, x.entries[x.below offset].offset = offset
      ∧ x.entries[x.below offset].id ≤ id := by
  obtain ⟨k, hk, hentry⟩ := Array.mem_iff_getElem.1 h
  have hk' : x.entries[k].offset = offset := congrArg Entry.offset hentry
  have hle : x.below offset ≤ k := by
    refine Nat.le_of_not_lt fun hlt => ?_
    exact UInt64.ne_of_lt ((hx.lt_below_iff hk).1 hlt) hk'
  have hb := Nat.lt_of_le_of_lt hle hk
  have hoffset : x.entries[x.below offset].offset = offset := by
    refine UInt64.le_antisymm (hk' ▸ hx.offset_le hle hk) (UInt64.not_lt.1 fun hlt => ?_)
    exact Nat.lt_irrefl _ ((hx.lt_below_iff hb).2 hlt)
  refine ⟨hb, hoffset, ?_⟩
  have hid := hx.id_le hle hk (hoffset.trans hk'.symm)
  rwa [hentry] at hid

/-! ## Answers -/

/-- The smallest identifier with an offset is answered, and none if none has it. -/
theorem Sorted.idFor_eq_some_iff (hx : x.Sorted) :
    x.idFor offset = some id ↔ IsLeast (x.idsAt offset) id := by
  constructor
  · intro h
    unfold idFor at h
    split at h
    · next e he =>
      split at h
      · next hoffset =>
        cases h
        obtain ⟨hb, rfl⟩ := Array.getElem?_eq_some_iff.1 he
        exact ⟨mem_idsAt (Array.getElem_mem hb) hoffset, fun id hid => (hx.entry_below hid).2.2⟩
      · cases h
    · cases h
  · rintro ⟨hmem, hleast⟩
    obtain ⟨hb, hoffset, hid⟩ := hx.entry_below hmem
    have hother := mem_idsAt (Array.getElem_mem hb) hoffset
    rw [idFor, Array.getElem?_eq_getElem hb]
    simp only [if_pos hoffset]
    exact congrArg some (UInt64.le_antisymm hid (hleast hother))

theorem Sorted.idFor_eq_none_iff (hx : x.Sorted) :
    x.idFor offset = none ↔ ∀ id, id ∉ x.idsAt offset := by
  constructor
  · intro hnone id hid
    obtain ⟨hb, hoffset, -⟩ := hx.entry_below hid
    rw [idFor, Array.getElem?_eq_getElem hb] at hnone
    simp [hoffset] at hnone
  · intro hfree
    refine Option.eq_none_iff_forall_ne_some.2 fun id hid => ?_
    exact hfree id (hx.idFor_eq_some_iff.1 hid).1

/-- The offsets that are taken, up to one. -/
def offsetsUpTo (x : OffsetIndex) (offset : UInt64) : Set UInt64 :=
  {base | base ≤ offset ∧ (x.idsAt base).Nonempty}

/-- What is answered for an offset is answered for the greatest one taken at or below it. -/
theorem Sorted.containing_of_isGreatest (hx : x.Sorted) {base : UInt64}
    (hbase : IsGreatest (x.offsetsUpTo offset) base) :
    x.containing offset = (x.idFor base).map fun id => (id, offset - base) := by
  obtain ⟨⟨hle, id, hid⟩, hgreatest⟩ := hbase
  obtain ⟨hb, hfirst, -⟩ := hx.entry_below hid
  have hpos : x.below base < x.upTo offset := by
    rw [hx.lt_upTo_iff hb, hfirst]
    exact hle
  obtain ⟨last, hlast⟩ := Nat.exists_eq_add_one_of_ne_zero (Nat.ne_zero_of_lt hpos)
  have hsize : last < x.entries.size := by
    have := x.upTo_le offset
    omega
  have hmem := mem_idsAt (Array.getElem_mem hsize) rfl
  have hlastle : x.entries[last].offset ≤ offset :=
    (hx.lt_upTo_iff hsize).1 (by omega)
  have hlastbase : x.entries[last].offset = base := by
    refine UInt64.le_antisymm (hgreatest ⟨hlastle, _, hmem⟩) ?_
    rw [← hfirst]
    exact hx.offset_le (by omega) hsize
  simp only [containing, hlast, Array.getElem?_eq_getElem hsize, hlastbase,
    Array.getElem?_eq_getElem hb, idFor, if_pos hfirst, Option.map_some]

theorem Sorted.containing_of_forall_lt (hx : x.Sorted)
    (h : ∀ e ∈ x.entries, offset < e.offset) : x.containing offset = none := by
  have hzero : x.upTo offset = 0 := by
    refine Nat.eq_zero_of_not_pos fun hpos => ?_
    have hsize := Nat.lt_of_lt_of_le hpos (x.upTo_le offset)
    have hle := (hx.lt_upTo_iff hsize).1 hpos
    exact absurd (h _ (Array.getElem_mem hsize)) (UInt64.not_lt.2 hle)
  simp only [containing, hzero]

/-- If any entry is at or below an offset, one of them has the greatest offset. -/
theorem Sorted.exists_isGreatest (hx : x.Sorted) {e : Entry} (he : e ∈ x.entries)
    (hle : e.offset ≤ offset) : ∃ base, IsGreatest (x.offsetsUpTo offset) base := by
  obtain ⟨k, hk, rfl⟩ := Array.mem_iff_getElem.1 he
  have hpos := (hx.lt_upTo_iff hk).2 hle
  have hsize : x.upTo offset - 1 < x.entries.size := by
    have := x.upTo_le offset
    omega
  refine ⟨x.entries[x.upTo offset - 1].offset, ⟨?_, _, mem_idsAt (Array.getElem_mem hsize) rfl⟩, ?_⟩
  · exact (hx.lt_upTo_iff hsize).1 (by omega)
  · rintro base ⟨hbase, id, hid⟩
    obtain ⟨i, hi, hentry⟩ := Array.mem_iff_getElem.1 hid
    have hoffset : x.entries[i].offset = base := congrArg Entry.offset hentry
    rw [← hoffset] at hbase ⊢
    have hi' := (hx.lt_upTo_iff hi).2 hbase
    exact hx.offset_le (by omega) hsize

/-- The answer for an offset is the greatest one at or below it, with its smallest identifier. -/
theorem Sorted.containing_eq_some_iff (hx : x.Sorted) {distance : UInt64} :
    x.containing offset = some (id, distance)
      ↔ ∃ base, IsGreatest (x.offsetsUpTo offset) base ∧ IsLeast (x.idsAt base) id
        ∧ distance = offset - base := by
  constructor
  · intro h
    by_cases hsome : ∃ e ∈ x.entries, e.offset ≤ offset
    · obtain ⟨e, he, hle⟩ := hsome
      obtain ⟨base, hbase⟩ := hx.exists_isGreatest he hle
      rw [hx.containing_of_isGreatest hbase, Option.map_eq_some_iff] at h
      obtain ⟨found, hfound, heq⟩ := h
      cases heq
      exact ⟨base, hbase, hx.idFor_eq_some_iff.1 hfound, rfl⟩
    · have hnone : ∀ e ∈ x.entries, offset < e.offset := fun e he =>
        UInt64.not_le.1 fun hle => hsome ⟨e, he, hle⟩
      rw [hx.containing_of_forall_lt hnone] at h
      cases h
  · rintro ⟨base, hbase, hleast, rfl⟩
    rw [hx.containing_of_isGreatest hbase, hx.idFor_eq_some_iff.2 hleast, Option.map_some]

theorem Sorted.containing_eq_none_iff (hx : x.Sorted) :
    x.containing offset = none ↔ ∀ e ∈ x.entries, offset < e.offset := by
  refine ⟨fun h e he => UInt64.not_le.1 fun hle => ?_, hx.containing_of_forall_lt⟩
  obtain ⟨base, hbase⟩ := hx.exists_isGreatest he hle
  obtain ⟨id, hid⟩ := hbase.1.2
  rw [hx.containing_of_isGreatest hbase, Option.map_eq_none_iff] at h
  exact hx.idFor_eq_none_iff.1 h id hid

/-! ## The index of a table -/

/-- How an index answers for what look-ups in a table find. -/
structure Inverts (x : OffsetIndex) (t : Table) : Prop where
  /-- The smallest identifier with exactly this offset. -/
  idFor : ∀ offset id, x.idFor offset = some id ↔ IsLeast {id | t.find id = some offset} id
  idFor_none : ∀ offset, x.idFor offset = none ↔ ∀ id, t.find id ≠ some offset
  /-- The greatest offset at or below this one, the smallest identifier there, and how far away it
  is. -/
  containing : ∀ offset id distance, x.containing offset = some (id, distance)
    ↔ ∃ base, IsGreatest {base | base ≤ offset ∧ ∃ id, t.find id = some base} base
      ∧ IsLeast {id | t.find id = some base} id ∧ distance = offset - base
  containing_none : ∀ offset, x.containing offset = none
    ↔ ∀ id base, t.find id = some base → offset < base
  length : x.length = {id | (t.find id).isSome}.ncard

variable {t : Table}

theorem mem_build {e : Entry} : e ∈ (build t).entries ↔ e ∈ lastOfEach t.entries := by
  simp [build]

theorem mem_build_iff (ht : t.Ascends) {e : Entry} :
    e ∈ (build t).entries ↔ t.find e.id = some e.offset := by
  rw [mem_build, mem_lastOfEach_iff ht.sorted, ht.find_eq_some_iff]

theorem idsAt_build (ht : t.Ascends) (offset : UInt64) :
    (build t).idsAt offset = {id | t.find id = some offset} :=
  Set.ext fun _ => mem_build_iff ht

theorem offsetsUpTo_build (ht : t.Ascends) (offset : UInt64) :
    (build t).offsetsUpTo offset = {base | base ≤ offset ∧ ∃ id, t.find id = some base} := by
  simp only [offsetsUpTo, idsAt_build ht]
  rfl

/-- Each identifier that is found is indexed once. -/
theorem length_build (ht : t.Ascends) :
    (build t).length = {id | (t.find id).isSome}.ncard := by
  have hnodup : ((lastOfEach t.entries).map Entry.id).Nodup :=
    List.pairwise_map.2 ((lastOfEach_ascending ht.sorted).imp UInt64.ne_of_lt)
  have hfound : {id | (t.find id).isSome} = ((lastOfEach t.entries).map Entry.id).toFinset := by
    ext id
    simp only [Set.mem_ofPred_eq, List.coe_toFinset, List.mem_map, Option.isSome_iff_exists]
    constructor
    · rintro ⟨offset, hfind⟩
      exact ⟨⟨id, offset⟩, mem_build.1 ((mem_build_iff ht).2 hfind), rfl⟩
    · rintro ⟨e, he, rfl⟩
      exact ⟨e.offset, (mem_build_iff ht).1 (mem_build.2 he)⟩
  rw [hfound, Set.ncard_coe_finset, List.toFinset_card_of_nodup hnodup, List.length_map]
  simp [length, build]

/-- **The index leads back to what look-ups find.** -/
theorem build_inverts (ht : t.Ascends) : (build t).Inverts t := by
  have hx := sorted_build t
  refine ⟨?idFor, ?idFor_none, ?containing, ?containing_none, length_build ht⟩
  case idFor =>
    intro offset id
    rw [hx.idFor_eq_some_iff, idsAt_build ht]
  case idFor_none =>
    intro offset
    rw [hx.idFor_eq_none_iff, idsAt_build ht]
    rfl
  case containing =>
    intro offset id distance
    simp only [hx.containing_eq_some_iff, offsetsUpTo_build ht, idsAt_build ht]
  case containing_none =>
    intro offset
    rw [hx.containing_eq_none_iff]
    constructor
    · intro h id base hfind
      exact h ⟨id, base⟩ ((mem_build_iff ht).2 hfind)
    · intro h e he
      exact h e.id e.offset ((mem_build_iff ht).1 he)

/-- Two identifiers share an offset, and one of them had another offset before. -/
theorem build_inverts_shared :
    ∃ t : Table, t.Ascends ∧ t.entries = [⟨1, 16⟩, ⟨2, 16⟩, ⟨2, 32⟩, ⟨3, 16⟩]
      ∧ (build t).Inverts t ∧ (build t).idFor 16 = some 1 := by
  obtain ⟨t, ht, hentries⟩ :=
    Table.exists_ofOrdered [⟨1, 16⟩, ⟨2, 16⟩, ⟨2, 32⟩, ⟨3, 16⟩] (by decide)
  have hascends : t.Ascends := .ordered ht (by rw [hentries]; decide)
  have hinverts := build_inverts hascends
  refine ⟨t, hascends, hentries, hinverts, (hinverts.idFor 16 1).2 ⟨?_, fun id hid => ?_⟩⟩
  · refine hascends.find_eq_some_iff.2 ?_
    rw [hentries]
    rfl
  · obtain ⟨hmem, -⟩ := mem_of_lastOf (hascends.find_eq_some_iff.1 hid)
    rw [hentries] at hmem
    simp only [List.mem_cons, Entry.mk.injEq, List.not_mem_nil, or_false] at hmem
    rcases hmem with ⟨rfl, -⟩ | ⟨rfl, -⟩ | ⟨rfl, -⟩ | ⟨rfl, -⟩ <;> decide

end OffsetIndex

end OffsetAtlas
