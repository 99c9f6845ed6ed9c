/-
OffsetAtlas.Proofs.Database.Listing — look-ups find what is listed.

A table can be asked for an identifier and it can be listed, and the two go different ways over the
same bytes: the bisection of an ordered table reads a few entries and a list reads all of them; the
look-up in a dense table takes the identifier for a position and a list takes positions for
identifiers. Main statement: whatever block a table is made of, the two agree (`find_lists`). On
entries in any order the bisection may miss, but it never answers with something that is not there;
where the identifiers ascend it answers with the last entry that has the one asked for. In a dense
table found and listed is the same. A database passes this on, and says that it is empty or that an
identifier is missing where there is no offset to give.
-/
import OffsetAtlas.Database.Basic
import OffsetAtlas.Proofs.Table.Dense
import OffsetAtlas.Proofs.Table.Last

namespace OffsetAtlas

variable {block : ByteArray} {start length : Nat} {id : UInt64}

/-! ## Ordered tables -/

theorem OrderedTable.find_eq_lastOf {t : OrderedTable}
    (hsorted : t.entries.Pairwise fun a b => a.id ≤ b.id) (id : UInt64) :
    t.find id = (lastOf t.entries id).map Entry.offset := by
  rw [find_of_ascending hsorted, lastOf_eq_getLast?]

/-- The entries of a table stand side by side where it starts. -/
theorem OrderedTable.entries_eq_map {t : OrderedTable} :
    t.entries = (List.range t.length).map fun i =>
      Entry.ofBytes (((octets t.span.block).drop (t.span.start + i * Entry.size)).take Entry.size) := by
  refine List.ext_getElem (by simp) fun i hi hi' => ?_
  rw [getElem_entries, List.getElem_map, List.getElem_range, entry]
  exact congrArg Entry.ofBytes (Span.item_eq t.span _)

/-- Entries that fit the address space have a table. -/
theorem Table.exists_ofOrdered (es : List Entry) (h : es.length * Entry.size < addressSpace) :
    ∃ t, ofOrdered (tableBlock es) 0 es.length = .ok t ∧ t.entries = es := by
  have hinside : 0 + es.length * Entry.size ≤ (tableBlock es).size := by
    have hsize := size_tableBlock es
    omega
  refine ⟨.ordered ⟨⟨_, 0, es.length, hinside⟩⟩, ?_, OrderedTable.entries_eq rfl rfl rfl⟩
  exact ofOrdered_eq_ok.2 ⟨by omega, hinside, rfl⟩

/-- How an ordered table that was made of a block lists and finds. -/
structure Table.ListsOrdered (t : Table) (block : ByteArray) (start length : Nat) : Prop where
  /-- Sixteen bytes of the block are an entry. -/
  listed : t.entries = (List.range length).map fun i =>
    Entry.ofBytes (((octets block).drop (start + i * Entry.size)).take Entry.size)
  /-- Nothing is found that is not listed, in whatever order the entries are. -/
  sound : ∀ id offset, t.find id = some offset → ⟨id, offset⟩ ∈ t.entries
  /-- Of entries with one identifier the last one is found. -/
  last : (t.entries.Pairwise fun a b => a.id ≤ b.id) → ∀ id,
    t.find id = (lastOf t.entries id).map Entry.offset
  missing : (t.entries.Pairwise fun a b => a.id ≤ b.id) → ∀ id,
    t.find id = none ↔ ∀ e ∈ t.entries, e.id ≠ id

theorem Table.listsOrdered {t : Table} (h : ofOrdered block start length = .ok t) :
    t.ListsOrdered block start length := by
  obtain ⟨-, inside, rfl⟩ := ofOrdered_eq_ok.1 h
  refine ⟨?listed, ?sound, ?last, ?missing⟩
  case listed => exact OrderedTable.entries_eq_map
  case sound =>
    intro id offset hfind
    exact OrderedTable.mem_of_find hfind
  case last =>
    intro hsorted id
    exact OrderedTable.find_eq_lastOf hsorted id
  case missing =>
    intro hsorted id
    refine Iff.trans ?_ lastOf_eq_none_iff
    rw [← Option.map_eq_none_iff (f := Entry.offset)]
    exact Eq.congr_left (OrderedTable.find_eq_lastOf hsorted id)

/-! ## Dense tables -/

/-- Tables made of a block have less slots than there are identifiers. -/
theorem Table.length_le_of_small (h : start + length * slotSize < addressSpace) :
    length ≤ UInt64.size := by
  rw [slotSize, addressSpace] at h
  omega

/-- A slot is four bytes of the block. -/
theorem DenseTable.slot_eq {t : DenseTable} {i : Nat} (hi : i < t.length) :
    t.slot i = UInt32.ofNat (Bytes.read
      (((octets t.span.block).drop (t.span.start + i * slotSize)).take slotSize)) := by
  rw [slot_of_lt hi, Span.item_eq]

theorem DenseTable.entries_eq_filterMap (t : DenseTable) :
    t.entries = (List.range t.length).filterMap fun i =>
      let word := UInt32.ofNat (Bytes.read
        (((octets t.span.block).drop (t.span.start + i * slotSize)).take slotSize))
      if word = 0 then none else some ⟨UInt64.ofNat i, word.toUInt64⟩ := by
  refine List.filterMap_congr fun i hi => ?_
  rw [slot_eq (List.mem_range.1 hi)]

/-- How a dense table that was made of a block lists and finds. -/
structure Table.ListsDense (t : Table) (block : ByteArray) (start length : Nat) : Prop where
  /-- Four bytes of the block are the offset of the identifier with their number, or zero. -/
  listed : t.entries = (List.range length).filterMap fun i =>
    let word := UInt32.ofNat (Bytes.read
      (((octets block).drop (start + i * slotSize)).take slotSize))
    if word = 0 then none else some ⟨UInt64.ofNat i, word.toUInt64⟩
  ascending : t.entries.Pairwise fun a b => a.id < b.id
  nonzero : ∀ e ∈ t.entries, e.offset ≠ 0
  /-- What is found is what is listed. -/
  found : ∀ id offset, t.find id = some offset ↔ ⟨id, offset⟩ ∈ t.entries

theorem Table.listsDense {t : Table} (h : ofDense block start length = .ok t) :
    t.ListsDense block start length := by
  obtain ⟨hsmall, inside, rfl⟩ := ofDense_eq_ok.1 h
  have hwords : DenseTable.length ⟨⟨block, start, length, inside⟩⟩ ≤ UInt64.size :=
    length_le_of_small hsmall
  refine ⟨?listed, ?ascending, ?nonzero, ?found⟩
  case listed => exact DenseTable.entries_eq_filterMap _
  case ascending => exact DenseTable.entries_ascending hwords
  case nonzero =>
    intro e he
    exact DenseTable.offset_ne_zero he
  case found =>
    intro id offset
    exact DenseTable.find_eq_some_iff hwords

/-! ## Databases -/

/-- How a database passes on what its table finds. -/
structure Database.Reports (db : Database) : Prop where
  empty : ∀ id, db.offset id = .error .notLoaded ↔ db.table.length = 0
  found : ∀ id offset, db.table.length ≠ 0 →
    (db.offset id = .ok offset ↔ db.table.find id = some offset)
  missed : ∀ id, db.table.length ≠ 0 → db.table.find id = none →
    db.offset id = .error (.idNotFound id db.version)

theorem Database.offset_of_find {db : Database} {id offset : UInt64} (hne : db.table.length ≠ 0)
    (hfind : db.table.find id = some offset) : db.offset id = .ok offset := by
  rw [Database.offset, if_neg hne, hfind]

theorem Database.offset_of_missed {db : Database} {id : UInt64} (hne : db.table.length ≠ 0)
    (hnone : db.table.find id = none) : db.offset id = .error (.idNotFound id db.version) := by
  rw [Database.offset, if_neg hne, hnone]

theorem Database.reports (db : Database) : db.Reports := by
  refine ⟨?empty, ?found, fun id hne hnone => offset_of_missed hne hnone⟩
  case empty =>
    intro id
    constructor
    · intro hoffset
      by_contra hne
      cases hfind : db.table.find id with
      | none => rw [offset_of_missed hne hfind] at hoffset; cases hoffset
      | some found => rw [offset_of_find hne hfind] at hoffset; cases hoffset
    · exact fun hzero => if_pos hzero
  case found =>
    intro id offset hne
    cases hfind : db.table.find id with
    | none => simp [offset_of_missed hne hfind]
    | some found => simp [offset_of_find hne hfind]

/-! ## Any table -/

/-- **Look-ups find what is listed.** This holds of every table that a block can be made into, and
of what a database says of its table. -/
theorem Table.find_lists (block : ByteArray) (start length : Nat) :
    (∀ t, ofOrdered block start length = .ok t → t.ListsOrdered block start length)
      ∧ (∀ t, ofDense block start length = .ok t → t.ListsDense block start length)
      ∧ ∀ db : Database, db.Reports :=
  ⟨fun _ => listsOrdered, fun _ => listsDense, Database.reports⟩

/-- Of two entries for 5 the later one is found, and a slot that is zero is not. -/
theorem Table.find_lists_repeated :
    ∃ t u, ofOrdered (tableBlock [⟨3, 7⟩, ⟨5, 1⟩, ⟨5, 2⟩]) 0 3 = .ok t
      ∧ t.find 5 = some 2 ∧ t.find 4 = none
      ∧ ofDense ⟨#[0, 0, 0, 0, 7, 0, 0, 0]⟩ 0 2 = .ok u
      ∧ u.find 1 = some 7 ∧ u.find 0 ≠ some 0 := by
  obtain ⟨t, ht, hentries⟩ := exists_ofOrdered [⟨3, 7⟩, ⟨5, 1⟩, ⟨5, 2⟩] (by decide)
  have hinside : 0 + 2 * slotSize ≤ ByteArray.size ⟨#[0, 0, 0, 0, 7, 0, 0, 0]⟩ := by decide
  have hu := ofDense_eq_ok.2 ⟨by decide, hinside, rfl⟩
  have hlists := (find_lists _ 0 3).1 t ht
  have hdense := (find_lists _ 0 2).2.1 _ hu
  refine ⟨t, _, ht, ?repeated, ?missing, hu, ?found, ?zero⟩
  case repeated =>
    rw [hlists.last (by rw [hentries]; decide), hentries]
    rfl
  case missing =>
    rw [hlists.missing (by rw [hentries]; decide), hentries]
    decide
  case found =>
    rw [hdense.found, hdense.listed]
    decide
  case zero =>
    intro hfind
    exact hdense.nonzero _ ((hdense.found 0 0).1 hfind) rfl

end OffsetAtlas
