/-
OffsetAtlas.Proofs.Table.Checked — look-ups in arithmetic that can fail.

A table reads its items by proof, and its sums are sums of natural numbers. Here the look-ups are
written out once more in the steps that a machine takes: a sum or a product has to stay inside the
address space, nothing is taken from a smaller number, bytes lie between two positions of the block,
and an entry of the index is asked for by its place. Where any of this does not hold there is no
answer at all.

In a table that passed the one check there is (`Table.Fits`) every step holds and the answers are
the plain ones (`Table.Fits.checkedFind_eq`, `Table.Fits.checkedBuild_eq`). What the index needs
besides is its order by offset (`OffsetIndex.Sorted.checkedContaining_eq`). `Table.InBounds` puts
them together.
-/
import OffsetAtlas.Proofs.Table.Reverse

namespace OffsetAtlas

/-! ## Words and blocks -/

namespace Checked

/-- A sum inside the address space. -/
def add (a b : Nat) : Option Nat :=
  if a + b < addressSpace then some (a + b) else none

/-- A product inside the address space. -/
def mul (a b : Nat) : Option Nat :=
  if a * b < addressSpace then some (a * b) else none

/-- A difference that is not below zero. -/
def sub (a b : Nat) : Option Nat :=
  if b ≤ a then some (a - b) else none

/-- The bytes from one position up to another, both of them in the block. -/
def slice (block : ByteArray) (first last : Nat) : Option (List UInt8) :=
  if first ≤ last ∧ last ≤ block.size then some (((octets block).take last).drop first) else none

/-- The bytes of an item. -/
def item (block : ByteArray) (start width index : Nat) : Option (List UInt8) := do
  let skipped ← mul index width
  let first ← add start skipped
  let last ← add first width
  slice block first last

/-- The middle of a range. -/
def midpoint (lo hi : Nat) : Option Nat := do
  let distance ← sub hi lo
  add lo (distance / 2)

variable {a b lo hi mid : Nat}

theorem add_of_lt (h : a + b < addressSpace) : add a b = some (a + b) :=
  if_pos h

theorem mul_of_lt (h : a * b < addressSpace) : mul a b = some (a * b) :=
  if_pos h

theorem sub_of_le (h : b ≤ a) : sub a b = some (a - b) :=
  if_pos h

/-- The difference of two words is a word. -/
theorem ofNat_sub {a b : UInt64} (h : b ≤ a) : UInt64.ofNat (a.toNat - b.toNat) = a - b := by
  rw [← UInt64.toNat_sub_of_le _ _ h, UInt64.ofNat_toNat]

theorem midpoint_of_le (h : lo ≤ hi) (hhi : hi < addressSpace) :
    midpoint lo hi = some (lo + (hi - lo) / 2) := by
  rw [midpoint, sub_of_le h]
  exact add_of_lt (by omega)

theorem add_eq_some (h : add a b = some mid) : mid = a + b :=
  (Option.some.inj (Option.ite_none_right_eq_some.1 h).2).symm

theorem sub_eq_some (h : sub a b = some mid) : mid = a - b :=
  (Option.some.inj (Option.ite_none_right_eq_some.1 h).2).symm

theorem midpoint_eq_some (h : midpoint lo hi = some mid) : mid = lo + (hi - lo) / 2 := by
  obtain ⟨distance, hdistance, hmid⟩ := Option.bind_eq_some_iff.1 h
  rw [add_eq_some hmid, sub_eq_some hdistance]

/-- Halves the range of candidates, going up where `p` holds. -/
def bisect (p : Nat → Option Bool) (lo hi : Nat) : Option Nat :=
  if lo < hi then
    match _hmid : midpoint lo hi with
    | none => none
    | some mid =>
      match p mid with
      | none => none
      | some true =>
        match _hnext : add mid 1 with
        | none => none
        | some next => bisect p next hi
      | some false => bisect p lo mid
  else some lo
termination_by hi - lo
decreasing_by
  · have := midpoint_eq_some _hmid
    have := add_eq_some _hnext
    omega
  · have := midpoint_eq_some _hmid
    omega

theorem bisect_of_le (p : Nat → Option Bool) (h : hi ≤ lo) : bisect p lo hi = some lo := by
  rw [bisect, if_neg (Nat.not_lt.2 h)]

/-- One step of the halving, where the range is inside the address space. -/
theorem bisect_of_lt {p : Nat → Option Bool} {up : Bool} (h : lo < hi) (hhi : hi < addressSpace)
    (hp : p (lo + (hi - lo) / 2) = some up) :
    bisect p lo hi = if up then bisect p (lo + (hi - lo) / 2 + 1) hi
      else bisect p lo (lo + (hi - lo) / 2) := by
  have hmiddle := midpoint_of_le (Nat.le_of_lt h) hhi
  have hnext : add (lo + (hi - lo) / 2) 1 = some (lo + (hi - lo) / 2 + 1) :=
    add_of_lt (by omega)
  rw [bisect, if_pos h]
  split
  · next hmid =>
    rw [hmiddle] at hmid
    cases hmid
  · next mid hmid =>
    obtain rfl : lo + (hi - lo) / 2 = mid := Option.some.inj (hmiddle.symm.trans hmid)
    rw [hp]
    cases up with
    | true =>
      simp only [if_true]
      split
      · next hnone =>
        rw [hnext] at hnone
        cases hnone
      · next hsome =>
        rw [hnext] at hsome
        cases hsome
        rfl
    | false => rfl

/-- The halving takes the same way as the plain one. -/
theorem bisect_eq {n : Nat} {p : Fin n → Bool} {q : Nat → Option Bool} (hn : n < addressSpace)
    (hq : ∀ i : Fin n, q i = some (p i)) (lo hi : Nat) (inside : hi ≤ n) :
    bisect q lo hi = some (OffsetAtlas.bisect p lo hi inside) := by
  fun_induction OffsetAtlas.bisect p lo hi inside with
  | case1 lo hi inside h mid hmid ih =>
    have hp : q (lo + (hi - lo) / 2) = some true := (hq ⟨mid, by omega⟩).trans (congrArg some hmid)
    rw [bisect_of_lt h (by omega) hp]
    exact ih
  | case2 lo hi inside h mid hmid ih =>
    have hp : q (lo + (hi - lo) / 2) = some false :=
      (hq ⟨mid, by omega⟩).trans (congrArg some (Bool.eq_false_of_not_eq_true hmid))
    rw [bisect_of_lt h (by omega) hp]
    exact ih
  | case3 lo hi inside h => exact bisect_of_le q (Nat.le_of_not_lt h)

theorem partitionPoint_eq {n : Nat} {p : Fin n → Bool} {q : Nat → Option Bool}
    (hn : n < addressSpace) (hq : ∀ i : Fin n, q i = some (p i)) :
    bisect q 0 n = some (partitionPoint p) :=
  bisect_eq hn hq 0 n (Nat.le_refl n)

/-- Steps that all give an answer give all the answers. -/
theorem mapM_eq_some {α β : Type} {f : α → Option β} {g : α → β} {l : List α}
    (h : ∀ a ∈ l, f a = some (g a)) : l.mapM f = some (l.map g) := by
  induction l with
  | nil => rfl
  | cons a l ih =>
    rw [List.mapM_cons, h a List.mem_cons_self, ih fun b hb => h b (List.mem_cons_of_mem a hb)]
    rfl

end Checked

/-! ## Items -/

namespace Span

variable {width : Nat} {s : Span width}

/-- The items end inside the address space. -/
def Fits (s : Span width) : Prop :=
  s.start + s.length * width < addressSpace

/-- An item ends where the items end, or before. -/
theorem item_end_le (s : Span width) {i : Nat} (hi : i < s.length) :
    s.start + i * width + width ≤ s.start + s.length * width := by
  have h : (i + 1) * width ≤ s.length * width := Nat.mul_le_mul_right _ hi
  rw [Nat.add_mul] at h
  omega

theorem Fits.checkedItem_eq (hs : s.Fits) (i : Fin s.length) :
    Checked.item s.block s.start width i = some (s.item i) := by
  have hend := s.item_end_le i.isLt
  have hspace := Nat.lt_of_le_of_lt hend hs
  have hblock := Nat.le_trans hend s.inside
  simp only [Checked.item, Option.bind_eq_bind]
  rw [Checked.mul_of_lt (by omega), Option.bind_some, Checked.add_of_lt (by omega),
    Option.bind_some, Checked.add_of_lt (by omega), Option.bind_some, Checked.slice,
    if_pos ⟨by omega, hblock⟩, item_eq, List.drop_take, Nat.add_sub_cancel_left]

end Span

/-! ## Ordered tables -/

namespace OrderedTable

/-- The entry at a place. -/
def checkedEntry (t : OrderedTable) (index : Nat) : Option Entry :=
  (Checked.item t.span.block t.span.start Entry.size index).map Entry.ofBytes

/-- The offset of an identifier. -/
def checkedFind (t : OrderedTable) (id : UInt64) : Option (Option UInt64) := do
  let rank ← Checked.bisect (fun i => (t.checkedEntry i).map fun e => decide (e.id ≤ id)) 0 t.length
  if rank = 0 then return none
  else
    let candidate ← t.checkedEntry (← Checked.sub rank 1)
    return if candidate.id = id then some candidate.offset else none

variable {t : OrderedTable}

theorem checkedEntry_eq (ht : t.span.Fits) (i : Fin t.length) :
    t.checkedEntry i = some (t.entry i) := by
  rw [checkedEntry, ht.checkedItem_eq i]
  rfl

theorem length_lt (ht : t.span.Fits) : t.length < addressSpace := by
  have hsize : t.span.start + t.span.length * 16 < addressSpace := ht
  rw [length]
  omega

theorem checkedFind_eq (ht : t.span.Fits) (id : UInt64) :
    t.checkedFind id = some (t.find id) := by
  have hrank : Checked.bisect (fun i => (t.checkedEntry i).map fun e => decide (e.id ≤ id)) 0
      t.length = some (t.rank id) :=
    Checked.partitionPoint_eq (length_lt ht) fun i => by rw [checkedEntry_eq ht]; rfl
  rw [checkedFind, hrank, Option.bind_eq_bind, Option.bind_some, find_eq]
  cases hplace : t.rank id with
  | zero => rfl
  | succ i =>
    have hi : i < t.entries.length :=
      Nat.lt_of_lt_of_le (hplace ▸ Nat.lt_succ_self i) (t.rank_le id)
    have hentry : t.checkedEntry i = some t.entries[i] := by
      rw [getElem_entries]
      exact checkedEntry_eq ht ⟨i, by simpa using hi⟩
    simp only [if_neg (Nat.succ_ne_zero i), Checked.sub_of_le (Nat.le_add_left 1 i),
      Nat.add_sub_cancel, Option.bind_eq_bind, Option.bind_some, hentry,
      List.getElem?_eq_getElem hi]
    rfl

end OrderedTable

/-! ## Dense tables -/

namespace DenseTable

/-- A slot's value; nothing is read behind the last slot. -/
def checkedSlot (t : DenseTable) (index : Nat) : Option UInt32 :=
  if index < t.length then
    (Checked.item t.span.block t.span.start slotSize index).map fun bs =>
      UInt32.ofNat (Bytes.read bs)
  else some 0

/-- The offset of an identifier. -/
def checkedFind (t : DenseTable) (id : UInt64) : Option (Option UInt64) := do
  let offset ← t.checkedSlot id.toNat
  return if offset = 0 then none else some offset.toUInt64

variable {t : DenseTable}

theorem checkedSlot_eq (ht : t.span.Fits) (i : Nat) : t.checkedSlot i = some (t.slot i) := by
  rw [checkedSlot]
  split
  · next hi =>
    rw [ht.checkedItem_eq ⟨i, hi⟩, slot_of_lt hi]
    rfl
  · next hi => rw [slot_of_le (Nat.le_of_not_lt hi)]

theorem checkedFind_eq (ht : t.span.Fits) (id : UInt64) :
    t.checkedFind id = some (t.find id) := by
  rw [checkedFind, checkedSlot_eq ht]
  rfl

end DenseTable

/-! ## Either of them -/

namespace Table

/-- Where the first item is. -/
def start : Table → Nat
  | .ordered t => t.span.start
  | .dense t => t.span.start

/-- How many bytes an item takes. -/
def width : Table → Nat
  | .ordered _ => Entry.size
  | .dense _ => slotSize

/-- The items end inside the address space. -/
def Fits : Table → Prop
  | .ordered t => t.span.Fits
  | .dense t => t.span.Fits

/-- The offset of an identifier. -/
def checkedFind : Table → UInt64 → Option (Option UInt64)
  | .ordered t => t.checkedFind
  | .dense t => t.checkedFind

/-- The entries in the order in which they are stored. -/
def checkedEntries : Table → Option (List Entry)
  | .ordered t => (List.finRange t.length).mapM fun i => t.checkedEntry i.val
  | .dense t => do
    let slots ← (List.range t.length).mapM fun i => (t.checkedSlot i).map (Prod.mk i)
    return slots.filterMap fun (i, offset) =>
      if offset = 0 then none else some ⟨UInt64.ofNat i, offset.toUInt64⟩

variable {t : Table}

theorem Fits.checkedFind_eq (ht : t.Fits) (id : UInt64) : t.checkedFind id = some (t.find id) := by
  cases t with
  | ordered t => exact OrderedTable.checkedFind_eq ht id
  | dense t => exact DenseTable.checkedFind_eq ht id

theorem Fits.checkedEntries_eq (ht : t.Fits) : t.checkedEntries = some t.entries := by
  cases t with
  | ordered t =>
    rw [checkedEntries, Checked.mapM_eq_some fun i _ => OrderedTable.checkedEntry_eq ht i]
    exact congrArg some List.ofFn_eq_map.symm
  | dense t =>
    have hslots : (List.range t.length).mapM (fun i => (t.checkedSlot i).map (Prod.mk i))
        = some ((List.range t.length).map fun i => (i, t.slot i)) :=
      Checked.mapM_eq_some fun i _ => by rw [DenseTable.checkedSlot_eq ht]; rfl
    rw [checkedEntries, hslots, Option.bind_eq_bind, Option.bind_some, List.filterMap_map]
    rfl

/-- There are no more entries than items. -/
theorem length_entries_le (t : Table) : t.entries.length ≤ t.length := by
  cases t with
  | ordered t => exact Nat.le_of_eq t.length_entries
  | dense t =>
    have h := List.length_filterMap_le (fun i =>
      let offset := t.slot i
      if offset = 0 then none else some (⟨UInt64.ofNat i, offset.toUInt64⟩ : Entry))
      (List.range t.length)
    rwa [List.length_range] at h

theorem Fits.length_lt (ht : t.Fits) : t.length < addressSpace := by
  cases t with
  | ordered t => exact OrderedTable.length_lt ht
  | dense t =>
    have hsize : t.span.start + t.span.length * 4 < addressSpace := ht
    rw [length, DenseTable.length]
    omega

end Table

/-! ## The index -/

namespace OffsetIndex

/-- The index of what look-ups in a table can find. -/
def checkedBuild (t : Table) : Option OffsetIndex := do
  let entries ← t.checkedEntries
  return ⟨((lastOfEach entries).mergeSort Entry.offsetOrder).toArray⟩

/-- How many entries lie below an offset. -/
def checkedBelow (x : OffsetIndex) (offset : UInt64) : Option Nat :=
  Checked.bisect (fun i => x.entries[i]?.map fun e => decide (e.offset < offset)) 0 x.length

/-- How many entries lie at or below an offset. -/
def checkedUpTo (x : OffsetIndex) (offset : UInt64) : Option Nat :=
  Checked.bisect (fun i => x.entries[i]?.map fun e => decide (e.offset ≤ offset)) 0 x.length

/-- The smallest identifier with exactly this offset. The place may be behind the last entry. -/
def checkedIdFor (x : OffsetIndex) (offset : UInt64) : Option (Option UInt64) := do
  let place ← x.checkedBelow offset
  match x.entries[place]? with
  | none => return none
  | some e => return if e.offset = offset then some e.id else none

/-- The smallest identifier at the greatest offset not above this one, and the distance to it. The
first entry with that offset has to be there. -/
def checkedContaining (x : OffsetIndex) (offset : UInt64) : Option (Option (UInt64 × UInt64)) := do
  let count ← x.checkedUpTo offset
  if count = 0 then return none
  else
    match x.entries[← Checked.sub count 1]? with
    | none => return none
    | some e =>
      let first ← x.entries[← x.checkedBelow e.offset]?
      let distance ← Checked.sub offset.toNat e.offset.toNat
      return some (first.id, UInt64.ofNat distance)

variable {x : OffsetIndex} {t : Table}

theorem checkedBuild_eq (ht : t.Fits) : checkedBuild t = some (build t) := by
  rw [checkedBuild, ht.checkedEntries_eq]
  rfl

/-- The index of a table is no longer than the table. -/
theorem length_build_le (t : Table) : (build t).length ≤ t.length := by
  have hkept : (build t).length = (lastOfEach t.entries).length := by simp [length, build]
  rw [hkept]
  exact Nat.le_trans (length_lastOfEach_le t.entries) t.length_entries_le

section

variable (hx : x.length < addressSpace)

include hx

theorem checkedBelow_eq (offset : UInt64) : x.checkedBelow offset = some (x.below offset) :=
  Checked.partitionPoint_eq hx fun i => by rw [Array.getElem?_eq_getElem i.isLt]; rfl

theorem checkedUpTo_eq (offset : UInt64) : x.checkedUpTo offset = some (x.upTo offset) :=
  Checked.partitionPoint_eq hx fun i => by rw [Array.getElem?_eq_getElem i.isLt]; rfl

theorem checkedIdFor_eq (offset : UInt64) : x.checkedIdFor offset = some (x.idFor offset) := by
  rw [checkedIdFor, checkedBelow_eq hx, Option.bind_eq_bind, Option.bind_some, idFor]
  cases x.entries[x.below offset]? <;> rfl

/-- The entry whose offset is answered is at or below what was asked, and so the first entry with
that offset is no further back than this one. -/
theorem Sorted.checkedContaining_eq (hsorted : x.Sorted) (offset : UInt64) :
    x.checkedContaining offset = some (x.containing offset) := by
  rw [checkedContaining, checkedUpTo_eq hx, Option.bind_eq_bind, Option.bind_some, containing]
  cases hcount : x.upTo offset with
  | zero => rfl
  | succ last =>
    have hlast : last < x.entries.size := by
      have := x.upTo_le offset
      omega
    have hle : x.entries[last].offset ≤ offset := (hsorted.lt_upTo_iff hlast).1 (by omega)
    have hfirst : x.below x.entries[last].offset < x.entries.size := by
      refine Nat.lt_of_le_of_lt (Nat.le_of_not_lt fun hlt => ?_) hlast
      exact UInt64.lt_irrefl _ ((hsorted.lt_below_iff hlast).1 hlt)
    simp only [if_neg (Nat.succ_ne_zero last), Checked.sub_of_le (Nat.le_add_left 1 last),
      Nat.add_sub_cancel, Option.bind_eq_bind, Option.bind_some, Array.getElem?_eq_getElem hlast,
      checkedBelow_eq hx, Array.getElem?_eq_getElem hfirst,
      Checked.sub_of_le (UInt64.le_iff_toNat_le.1 hle), Checked.ofNat_sub hle]
    rfl

end

end OffsetIndex

/-! ## All of it -/

/-- Nothing that is asked of a table, or of its index, leaves the words, the block or the index. -/
structure Table.InBounds (t : Table) (bytes : ByteArray) : Prop where
  /-- It is these bytes that are read. -/
  block : t.block = bytes
  item : ∀ i < t.length, t.start + i * t.width + t.width < addressSpace
    ∧ t.start + i * t.width + t.width ≤ bytes.size
  entry : ∀ u, t = .ordered u → ∀ i : Fin u.length, u.checkedEntry i = some (u.entry i)
  /-- The number of a slot need not be that of one there is. -/
  slot : ∀ u, t = .dense u → ∀ i, u.checkedSlot i = some (u.slot i)
  find : ∀ id, t.checkedFind id = some (t.find id)
  entries : t.checkedEntries = some t.entries
  build : OffsetIndex.checkedBuild t = some (.build t)
  idFor : ∀ offset,
    (OffsetIndex.build t).checkedIdFor offset = some ((OffsetIndex.build t).idFor offset)
  containing : ∀ offset,
    (OffsetIndex.build t).checkedContaining offset = some ((OffsetIndex.build t).containing offset)

theorem Table.Fits.item {t : Table} (ht : t.Fits) {i : Nat} (hi : i < t.length) :
    t.start + i * t.width + t.width < addressSpace
      ∧ t.start + i * t.width + t.width ≤ t.block.size := by
  cases t with
  | ordered t =>
    have hend := t.span.item_end_le hi
    exact ⟨Nat.lt_of_le_of_lt hend ht, Nat.le_trans hend t.span.inside⟩
  | dense t =>
    have hend := t.span.item_end_le hi
    exact ⟨Nat.lt_of_le_of_lt hend ht, Nat.le_trans hend t.span.inside⟩

theorem Table.Fits.length_build_lt {t : Table} (ht : t.Fits) :
    (OffsetIndex.build t).length < addressSpace :=
  Nat.lt_of_le_of_lt (OffsetIndex.length_build_le t) ht.length_lt

theorem Table.Fits.inBounds {t : Table} (ht : t.Fits) : t.InBounds t.block where
  block := rfl
  item _ hi := ht.item hi
  entry := by
    rintro u rfl i
    exact OrderedTable.checkedEntry_eq ht i
  slot := by
    rintro u rfl i
    exact DenseTable.checkedSlot_eq ht i
  find := ht.checkedFind_eq
  entries := ht.checkedEntries_eq
  build := OffsetIndex.checkedBuild_eq ht
  idFor := OffsetIndex.checkedIdFor_eq ht.length_build_lt
  containing := OffsetIndex.Sorted.checkedContaining_eq ht.length_build_lt
    (OffsetIndex.sorted_build t)

end OffsetAtlas
