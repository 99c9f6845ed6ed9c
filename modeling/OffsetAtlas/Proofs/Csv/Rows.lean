/-
OffsetAtlas.Proofs.Csv.Rows — the entries of a file are what its good rows say.

A row changes what a tally holds only if it is good, and then for its own identifier alone
(`Tally.getElem?_take`). What is held in the end is therefore what the good rows put there in file
order, whatever faulty, skipped or repeated rows stand between them (`Tally.getElem?_takeAll`).
Since the list of identifiers and the map never differ, the sort at the end finds each identifier
once, with the offset of its last good row (`mem_entries_parse`); and no other list that ascends
says the same (`entries_parse_eq`).
-/
import Mathlib.Data.Finset.Card
import OffsetAtlas.Csv.Parse
import OffsetAtlas.Proofs.Table.Sorting

namespace OffsetAtlas.Csv

open Text

/-- The entry of a row, if it is good. -/
def Row.listed? : Row → Option Entry
  | .good id offset => some ⟨id, offset⟩
  | .skipped => none
  | .bad _ => none

/-- The entries of the good rows among some lines, in their order. -/
def goodRows (lines : List (List UInt8)) : List Entry :=
  lines.filterMap fun line => (Row.ofLine line).listed?

/-- The identifiers of the good rows of a file, in their order, repeated ones included. -/
def identifiers (source : List UInt8) : List UInt64 :=
  (goodRows ((split newline source).drop 2)).map Entry.id

theorem goodRows_cons (line : List UInt8) (lines : List (List UInt8)) :
    goodRows (line :: lines) = (Row.ofLine line).listed?.toList ++ goodRows lines := by
  rw [goodRows, List.filterMap_cons]
  cases (Row.ofLine line).listed? with
  | none => rfl
  | some e => rfl

namespace Tally

variable (t : Tally)

/-! ## One row -/

theorem take_good_of_mem {id : UInt64} (h : id ∈ t.offsets) (number : Nat) (offset : UInt64) :
    t.take number (.good id offset) = t.replace number id offset h :=
  dif_pos h

theorem take_good_of_not_mem {id : UInt64} (h : id ∉ t.offsets) (number : Nat) (offset : UInt64) :
    t.take number (.good id offset) = t.add id offset h :=
  dif_neg h

/-- Whether its identifier is new or not, a good row puts its offset there. -/
theorem offsets_take_good (number : Nat) (id offset : UInt64) :
    (t.take number (.good id offset)).offsets = t.offsets.insert id offset := by
  by_cases h : id ∈ t.offsets
  · rw [take_good_of_mem t h]
    rfl
  · rw [take_good_of_not_mem t h]
    rfl

theorem getElem?_take (number : Nat) (row : Row) (id : UInt64) :
    (t.take number row).offsets[id]?
      = ((lastOf row.listed?.toList id).map Entry.offset).or t.offsets[id]? := by
  cases row with
  | skipped => rfl
  | bad fault => rfl
  | good id' offset =>
    rw [offsets_take_good, Std.HashMap.getElem?_insert, Row.listed?, Option.toList_some,
      lastOf_singleton]
    by_cases h : id' = id <;> simp [h]

/-! ## All rows -/

theorem takeAll_cons (line : List UInt8) (lines : List (List UInt8)) (first : Nat) :
    takeAll first (line :: lines) t
      = takeAll (first + 1) lines (t.take first (Row.ofLine line)) := by
  simp [takeAll]

/-- The rows that were taken leave behind what the good ones of them put in. -/
theorem getElem?_takeAll (lines : List (List UInt8)) (first : Nat) (id : UInt64) :
    (takeAll first lines t).offsets[id]?
      = ((lastOf (goodRows lines) id).map Entry.offset).or t.offsets[id]? := by
  induction lines generalizing t first with
  | nil => rfl
  | cons line lines ih =>
    rw [takeAll_cons, ih, getElem?_take, goodRows_cons, lastOf_append, Option.map_or,
      Option.or_assoc]

/-! ## The entries -/

/-- The entries before the sort have the identifiers of the list. -/
theorem ids_order :
    (t.order.attach.map fun id => t.entry id.1 id.2).toList.map Entry.id = t.order.toList := by
  rw [← Array.toList_map, Array.map_map]
  exact congrArg Array.toList (Array.attach_map_subtype_val t.order)

theorem entries_ascending : t.entries.Pairwise fun a b => a.id < b.id :=
  sortById_strictly (t.ids_order ▸ t.distinct)

theorem length_entries : t.entries.length = t.order.size := by
  rw [entries, length_sortById, ← List.length_map (f := Entry.id), ids_order, Array.length_toList]

theorem mem_entries {e : Entry} : e ∈ t.entries ↔ t.offsets[e.id]? = some e.offset := by
  rw [entries, (sortById_perm _).mem_iff, Array.mem_toList_iff, Array.mem_map,
    Std.HashMap.getElem?_eq_some_iff]
  constructor
  · rintro ⟨⟨id, hid⟩, -, rfl⟩
    exact ⟨(t.known id).1 hid, rfl⟩
  · rintro ⟨hid, hoffset⟩
    have horder : e.id ∈ t.order := (t.known e.id).2 hid
    exact ⟨⟨e.id, horder⟩, Array.mem_attach _ _, congrArg (Entry.mk e.id) hoffset⟩

end Tally

/-! ## Files -/

section

variable {source : List UInt8} {e : Entry}

/-- Identifiers ascend, and none is there twice. -/
theorem entries_parse_ascending (source : List UInt8) :
    (parse source).entries.Pairwise fun a b => a.id < b.id :=
  Tally.entries_ascending _

/-- The last good row with an identifier counts. -/
theorem mem_entries_parse :
    e ∈ (parse source).entries
      ↔ lastOf (goodRows ((split newline source).drop 2)) e.id = some e := by
  have hheld : e ∈ (parse source).entries
      ↔ (lastOf (goodRows ((split newline source).drop 2)) e.id).map Entry.offset
        = some e.offset := by
    rw [parse, Tally.mem_entries, Tally.getElem?_takeAll, Tally.empty, Std.HashMap.getElem?_empty,
      Option.or_none]
  rw [hheld, Option.map_eq_some_iff]
  constructor
  · rintro ⟨x, hx, hoffset⟩
    have hsame : x = e := by
      cases x
      cases e
      exact Entry.mk.injEq .. ▸ ⟨(mem_of_lastOf hx).2, hoffset⟩
    rwa [hsame] at hx
  · exact fun h => ⟨e, h, rfl⟩

theorem lastOf_entries_parse (source : List UInt8) (id : UInt64) :
    lastOf (parse source).entries id = lastOf (goodRows ((split newline source).drop 2)) id := by
  refine Option.ext fun e => ?_
  by_cases hid : e.id = id
  · subst hid
    exact (lastOf_eq_some_iff_mem (entries_parse_ascending source)).trans mem_entries_parse
  · exact ⟨fun h => absurd (mem_of_lastOf h).2 hid, fun h => absurd (mem_of_lastOf h).2 hid⟩

/-- Only one list ascends and says what the good rows say. -/
theorem entries_parse_eq {es : List Entry} (hes : es.Pairwise fun a b => a.id < b.id)
    (h : ∀ id, lastOf es id = lastOf (goodRows ((split newline source).drop 2)) id) :
    (parse source).entries = es :=
  eq_of_ascending (entries_parse_ascending source) hes fun id =>
    (lastOf_entries_parse source id).trans (h id).symm

/-- The identifiers of the result are those of the good rows. -/
theorem mem_ids_parse (source : List UInt8) (id : UInt64) :
    id ∈ (parse source).entries.map Entry.id ↔ id ∈ identifiers source := by
  rw [identifiers, ← lastOf_isSome_iff, ← lastOf_isSome_iff, lastOf_entries_parse]

end

end OffsetAtlas.Csv
