/-
OffsetAtlas.Proofs.Database.LastRecord — what a delta file answers, record by record.

A delta file may hold its records in any order, name an identifier many times, and wrap around in
its differences. Main statement: whatever file is loaded into a region of its own, its table is the
stable sort of the records as they were decoded, and each identifier is answered by the last record
of the file that carries it (`loadDelta_sorts`).

Three choices have to fit together for this. All records are written, the repeated ones too; the
sort leaves the records of one identifier in their order (`filter_sortById`); and the bisection ends
behind the last of equal identifiers (`OrderedTable.find_of_ascending`). What the file says last is
then what stands last among the equal ones.
-/
import OffsetAtlas.Proofs.Database.Attaching

namespace OffsetAtlas

/-- A table that is the stable sort of some records, and answers with the last one of each
identifier. -/
structure Table.Sorts (t : Table) (records : List Entry) : Prop where
  length : t.length = records.length
  ascending : t.entries.Pairwise fun a b => a.id ≤ b.id
  /-- No record is lost and none is invented. -/
  complete : t.entries.Perm records
  /-- Records of one identifier stand in the order in which they were. -/
  stable : ∀ id, (t.entries.filter fun e => e.id = id) = records.filter fun e => e.id = id
  last : ∀ front e back, records = front ++ e :: back → (∀ x ∈ back, x.id ≠ e.id) →
    t.find e.id = some e.offset
  missing : ∀ id, (∀ e ∈ records, e.id ≠ id) → t.find id = none

/-! ## Tables of sorted records -/

section

variable {t : OrderedTable} {records : List Entry}

/-- Look-ups in sorted records are look-ups in the records. -/
theorem OrderedTable.find_of_sorted (ht : t.entries = sortById records) (id : UInt64) :
    t.find id = ((records.filter fun e => e.id = id).getLast?).map Entry.offset := by
  have hsorted : t.entries.Pairwise fun a b => a.id ≤ b.id := by
    rw [ht]
    exact sortById_ascending records
  rw [find_of_ascending hsorted, ht, filter_sortById]

theorem OrderedTable.sorts (ht : t.entries = sortById records) :
    (Table.ordered t).Sorts records := by
  have hentries : (Table.ordered t).entries = sortById records := ht
  refine ⟨?length, ?ascending, ?complete, ?stable, ?last, ?missing⟩
  case length =>
    have hlength : t.entries.length = records.length := by rw [ht, length_sortById]
    exact t.length_entries.symm.trans hlength
  case ascending =>
    rw [hentries]
    exact sortById_ascending records
  case complete =>
    rw [hentries]
    exact sortById_perm records
  case stable =>
    intro id
    rw [hentries, filter_sortById]
  case last =>
    intro front e back hsplit hback
    have hrest : (back.filter fun x => x.id = e.id) = [] := by
      refine List.filter_eq_nil_iff.2 ?_
      intro x hx hid
      exact hback x hx (of_decide_eq_true hid)
    refine (find_of_sorted ht e.id).trans ?_
    rw [hsplit, List.filter_append, List.filter_cons_of_pos (by simp), hrest]
    simp
  case missing =>
    intro id hmissing
    have hnone : (records.filter fun e => e.id = id) = [] := by
      refine List.filter_eq_nil_iff.2 ?_
      intro e he hid
      exact hmissing e he (of_decide_eq_true hid)
    refine (find_of_sorted ht id).trans ?_
    rw [hnone]
    rfl

end

/-! ## Delta files -/

namespace Store

variable {payload : List UInt8} {running : Version} {h h' : Host} {st : Store}
  {header : Delta.Header}

/-- The entries of a delta file are the sorted records behind its header. -/
theorem sortById_of_entries? {es : List Entry} {r : Reader}
    (hes : Encoding.delta.entries? payload = some es)
    (hread : Attempt.on (.ofBytes payload) Delta.Header.read = (.ok header, r)) :
    ∃ records, (Attempt.on r (Delta.decodeRecords header.pointerSize header.addressCount)).1
        = .ok records ∧ es = sortById records := by
  simp only [Encoding.entries?, hread] at hes
  obtain ⟨records, hrecords, rfl⟩ := Option.map_eq_some_iff.1 hes
  refine ⟨records, ?_, rfl⟩
  cases hrun : (Attempt.on r (Delta.decodeRecords header.pointerSize header.addressCount)).1 with
  | error e =>
    rw [hrun] at hrecords
    cases hrecords
  | ok found =>
    rw [hrun] at hrecords
    cases hrecords
    rfl

/-- **A delta file answers with its last record.** A load into a private region hands out the header
that stands in the file, and the table is the stable sort of the records behind it, as many as the
header says. -/
theorem loadDelta_sorts
    (hload : loadDelta payload running .anonymous h = (.ok (st, header), h')) :
    ∃ r records r', Attempt.on (.ofBytes payload) Delta.Header.read = (.ok header, r)
      ∧ Attempt.on r (Delta.decodeRecords header.pointerSize header.addressCount)
        = (.ok records, r')
      ∧ records.length = header.addressCount ∧ st.table.Sorts records := by
  obtain ⟨r, _, _, hread, -⟩ := loadDelta_eq_ok hload
  have hstore : (Encoding.delta.load ⟨""⟩ payload running .anonymous h).1 = .ok st := by
    rw [Encoding.load, Attempt.map_apply, hload]
  obtain ⟨es, haccepted⟩ := Encoding.accepted_of_loadDelta hstore
  obtain ⟨_, t, hst, htable, hes⟩ := haccepted.load_private ⟨""⟩ h
  cases hstore.symm.trans hst
  obtain ⟨records, hrecords, rfl⟩ := sortById_of_entries? haccepted.entries hread
  refine ⟨r, records, _, hread, Prod.ext hrecords rfl, Delta.length_decodeRecords hrecords, ?_⟩
  rw [htable]
  exact OrderedTable.sorts hes

/-! ## Records that wrap -/

/-- A delta file whose first record goes below zero, whose second goes on to zero, and whose third
goes below zero again. -/
def wrapping : List UInt8 :=
  (⟨⟨1, 0, 0, 0⟩, "m", 8, 3⟩ : Delta.Header).bytes ++ [0x33, 1, 1, 0x11, 0x23, 1, 5]

/-- The greatest identifier, which the file names twice. -/
def greatest : UInt64 := 0xFFFFFFFFFFFFFFFF

theorem read_wrapping : Attempt.on (.ofBytes wrapping) Delta.Header.read
    = (.ok ⟨⟨1, 0, 0, 0⟩, Text.Utf8.untilNul (Text.Utf8.encode "m"), 8, 3⟩,
        ⟨29, [0x33, 1, 1, 0x11, 0x23, 1, 5]⟩) := rfl

theorem decode_wrapping : (Attempt.on ⟨29, [0x33, 1, 1, 0x11, 0x23, 1, 5]⟩
    (Delta.decodeRecords 8 3)).1 = .ok [⟨greatest, greatest⟩, ⟨0, 0⟩, ⟨greatest, 5⟩] := rfl

theorem accepted_wrapping : Encoding.delta.Accepted wrapping ⟨1, 0, 0, 0⟩
    (sortById [⟨greatest, greatest⟩, ⟨0, 0⟩, ⟨greatest, 5⟩]) where
  entries := by
    simp only [Encoding.entries?, read_wrapping, decode_wrapping]
    rfl
  bounded := by
    rw [length_sortById]
    decide
  accepted := rfl

theorem loadDelta_sorts_wrapping :
    ∃ st header h', loadDelta wrapping ⟨1, 0, 0, 0⟩ .anonymous (.ofDisk Encoding.bareDisk)
        = (.ok (st, header), h')
      ∧ st.table.Sorts [⟨greatest, greatest⟩, ⟨0, 0⟩, ⟨greatest, 5⟩]
      ∧ st.table.find greatest = some 5 ∧ st.table.find 1 = none := by
  obtain ⟨st, t, hstore, -⟩ := accepted_wrapping.load_private ⟨""⟩ (.ofDisk Encoding.bareDisk)
  obtain ⟨⟨st', header⟩, hload, -⟩ := Attempt.map_eq_ok.1 (Prod.ext hstore rfl)
  obtain ⟨r, records, r', hread, hdecode, -, hsorts⟩ := loadDelta_sorts hload
  cases read_wrapping.symm.trans hread
  have hrecords := decode_wrapping.symm.trans (congrArg Prod.fst hdecode)
  cases hrecords
  refine ⟨st', _, _, hload, hsorts, ?_, ?_⟩
  · exact hsorts.last [⟨greatest, greatest⟩, ⟨0, 0⟩] ⟨greatest, 5⟩ [] rfl (by simp)
  · exact hsorts.missing 1 (by decide)

end Store

end OffsetAtlas
