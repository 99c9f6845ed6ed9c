/-
OffsetAtlas.Proofs.Csv.Verdicts — a file of rows is what its lines are, one by one.

Rows go into a tally one after another, and a row may find there what an earlier row left. All the
same the tally is told by the verdicts on the lines alone (`Tally.Holds`): one more line keeps that
(`Holds.take`), and so do all lines (`Holds.takeAll`). So what a file holds is told by what its
lines look like (`parse_by_lines`), and a faulty line takes nothing from the others.

A file that fits the address space has no more entries than do (`room_of_length`): to repeat few
identifiers is no help, and different identifiers need digits.
-/
import OffsetAtlas.Proofs.Csv.Grammar
import OffsetAtlas.Proofs.Csv.Rows
import OffsetAtlas.Proofs.Database.Attaching
import OffsetAtlas.Proofs.Database.Listing

namespace OffsetAtlas.Csv

open Text

/-! ## Verdicts -/

/-- The entry of a good row. -/
def Verdict.entry? : Verdict → Option Entry
  | .good e => some e
  | .skipped => none
  | .bad => none

/-- The entries of the good rows, in their order. -/
def listed (verdicts : List Verdict) : List Entry :=
  verdicts.filterMap Verdict.entry?

/-- What the lines of a file behind the second count as. -/
def verdicts (source : List UInt8) : List Verdict :=
  ((source.splitOn newline).drop 2).map fun line => (Row.ofLine line).verdict

theorem entry?_verdict (row : Row) : row.verdict.entry? = row.listed? := by
  cases row <;> rfl

theorem listed_append (vs ws : List Verdict) : listed (vs ++ ws) = listed vs ++ listed ws :=
  List.filterMap_append

theorem listed_map_verdict (lines : List (List UInt8)) :
    listed (lines.map fun line => (Row.ofLine line).verdict) = goodRows lines := by
  simp only [listed, goodRows, List.filterMap_map, Function.comp_def, entry?_verdict]

theorem listed_verdicts (source : List UInt8) :
    listed (verdicts source) = goodRows ((split newline source).drop 2) := by
  rw [verdicts, listed_map_verdict, split_eq_splitOn]

theorem forall₂_judged_iff {lines : List (List UInt8)} {vs : List Verdict} :
    List.Forall₂ Judged lines vs ↔ vs = lines.map fun line => (Row.ofLine line).verdict := by
  have hjudged : Judged = fun line v => (Row.ofLine line).verdict = v :=
    funext fun line => funext fun v => propext judged_iff
  rw [hjudged, eq_comm, ← List.forall₂_eq_eq_eq, List.forall₂_map_left_iff]

/-! ## The tally -/

namespace Tally

variable {t : Tally} {vs : List Verdict}

/-- What a tally holds behind lines with these verdicts. -/
structure Holds (t : Tally) (vs : List Verdict) : Prop where
  /-- The last good row with an identifier counts. -/
  last : ∀ id, t.offsets[id]? = (lastOf (listed vs) id).map Entry.offset
  valid : t.valid = t.order.size
  rows : t.valid + t.duplicates = (listed vs).length
  invalid : t.invalid = vs.count .bad

theorem holds_empty (notices : Array Notice) : (empty notices).Holds [] where
  last _ := Std.HashMap.getElem?_empty
  valid := rfl
  rows := rfl
  invalid := rfl

/-- One more good row. -/
theorem Holds.take_good (ht : t.Holds vs) (number : Nat) (id offset : UInt64) :
    (t.take number (.good id offset)).Holds (vs ++ [.good ⟨id, offset⟩]) := by
  have hlisted : listed (vs ++ [.good ⟨id, offset⟩]) = listed vs ++ [⟨id, offset⟩] :=
    listed_append vs [.good ⟨id, offset⟩]
  have hcount : (vs ++ [Verdict.good ⟨id, offset⟩]).count .bad = vs.count .bad := by simp
  have hlast : ∀ x, (t.take number (.good id offset)).offsets[x]?
      = (lastOf (listed vs ++ [⟨id, offset⟩]) x).map Entry.offset := by
    intro x
    rw [getElem?_take, ht.last, lastOf_append, Option.map_or]
    rfl
  by_cases hknown : id ∈ t.offsets
  · rw [take_good_of_mem t hknown] at hlast ⊢
    refine ⟨hlisted ▸ hlast, ht.valid, ?_, hcount ▸ ht.invalid⟩
    rw [hlisted, List.length_append, ← ht.rows]
    exact (Nat.add_assoc ..).symm
  · rw [take_good_of_not_mem t hknown] at hlast ⊢
    refine ⟨hlisted ▸ hlast, ?_, ?_, hcount ▸ ht.invalid⟩
    · rw [add, Array.size_push, ht.valid]
    · rw [hlisted, List.length_append, ← ht.rows]
      exact Nat.add_right_comm ..

/-- One more row. -/
theorem Holds.take (ht : t.Holds vs) (number : Nat) (row : Row) :
    (t.take number row).Holds (vs ++ [row.verdict]) := by
  cases row with
  | skipped =>
    have hlisted : listed (vs ++ [.skipped]) = listed vs :=
      (listed_append vs [.skipped]).trans (List.append_nil _)
    have hcount : (vs ++ [Verdict.skipped]).count .bad = vs.count .bad := by simp
    exact ⟨hlisted ▸ ht.last, ht.valid, hlisted ▸ ht.rows, hcount ▸ ht.invalid⟩
  | bad fault =>
    have hlisted : listed (vs ++ [.bad]) = listed vs :=
      (listed_append vs [.bad]).trans (List.append_nil _)
    have hcount : (vs ++ [Verdict.bad]).count .bad = vs.count .bad + 1 := by simp
    exact ⟨hlisted ▸ ht.last, ht.valid, hlisted ▸ ht.rows, hcount ▸ congrArg (· + 1) ht.invalid⟩
  | good id offset => exact ht.take_good number id offset

/-- Any number of lines. -/
theorem Holds.takeAll (ht : t.Holds vs) (lines : List (List UInt8)) (first : Nat) :
    (takeAll first lines t).Holds (vs ++ lines.map fun line => (Row.ofLine line).verdict) := by
  induction lines generalizing t vs first with
  | nil => simpa [Tally.takeAll] using ht
  | cons line lines ih =>
    have hnext := ih (ht.take first (Row.ofLine line)) (first + 1)
    rw [List.append_assoc] at hnext
    rw [takeAll_cons]
    exact hnext

end Tally

/-! ## Files -/

section

variable (source : List UInt8)

/-- What a file holds behind its second line. -/
theorem holds_parse : ∃ t : Tally, t.Holds (verdicts source)
    ∧ (parse source).entries = t.entries
    ∧ (parse source).report.valid = t.valid ∧ (parse source).report.invalid = t.invalid
    ∧ (parse source).report.duplicates = t.duplicates := by
  refine ⟨_, ?_, rfl, rfl, rfl, rfl⟩
  have hall := (Tally.holds_empty (declarationNotices
    (((split newline source)[1]?).map Declaration.ofLine)).toArray).takeAll
    ((split newline source).drop 2) 3
  rw [List.nil_append] at hall
  rw [verdicts, ← split_eq_splitOn]
  exact hall

/-- The contents of a file, told by the verdicts on its lines behind the second. -/
structure Tells (verdicts : List Verdict) : Prop where
  ascending : (parse source).entries.Pairwise fun a b => a.id < b.id
  ids : ∀ id, id ∈ (parse source).entries.map Entry.id ↔ id ∈ (listed verdicts).map Entry.id
  /-- Each identifier has the offset of its last good row. -/
  last : ∀ e, e ∈ (parse source).entries ↔ lastOf (listed verdicts) e.id = some e
  valid : (parse source).report.valid = (parse source).entries.length
  unique : (parse source).report.unique = (parse source).entries.length
  rows : (parse source).report.valid + (parse source).report.duplicates = (listed verdicts).length
  invalid : (parse source).report.invalid = verdicts.count .bad
  /-- What is declared depends on the second line. -/
  declared : ∀ other, (other.splitOn newline)[1]? = (source.splitOn newline)[1]? →
    (parse other).report.expected = (parse source).report.expected
      ∧ (parse other).report.version = (parse source).report.version

variable {source}

theorem mem_entries_iff {e : Entry} :
    e ∈ (parse source).entries ↔ lastOf (listed (verdicts source)) e.id = some e := by
  rw [listed_verdicts]
  exact mem_entries_parse

theorem tells (source : List UInt8) : Tells source (verdicts source) := by
  obtain ⟨t, ht, hentries, hvalid, hinvalid, hduplicates⟩ := holds_parse source
  have hlength : (parse source).entries.length = t.order.size := by
    rw [hentries, Tally.length_entries]
  refine ⟨entries_parse_ascending source, ?ids, fun e => mem_entries_iff, ?valid, rfl, ?rows,
    ?invalid, ?declared⟩
  case ids =>
    intro id
    rw [mem_ids_parse, identifiers, listed_verdicts]
  case valid => rw [hvalid, ht.valid, hlength]
  case rows => rw [hvalid, hduplicates, ht.rows]
  case invalid => rw [hinvalid, ht.invalid]
  case declared =>
    intro other hsecond
    rw [← split_eq_splitOn, ← split_eq_splitOn] at hsecond
    simp only [parse, hsecond, and_self]

/-- A look-up among the entries is one among the good rows. -/
theorem lastOf_entries (source : List UInt8) (id : UInt64) :
    lastOf (parse source).entries id = lastOf (listed (verdicts source)) id := by
  rw [listed_verdicts]
  exact lastOf_entries_parse source id

theorem entries_eq_nil_iff : (parse source).entries = [] ↔ listed (verdicts source) = [] := by
  rw [← List.map_eq_nil_iff (f := Entry.id), ← List.map_eq_nil_iff (f := Entry.id),
    List.eq_nil_iff_forall_not_mem, List.eq_nil_iff_forall_not_mem]
  exact forall_congr' fun id => not_congr ((tells source).ids id)

end

/-! ## Room -/

theorem lists_of_listed? {line : List UInt8} {e : Entry}
    (h : (Row.ofLine line).listed? = some e) : Lists line e := by
  refine ofLine_eq_good_iff.1 ?_
  cases hrow : Row.ofLine line <;> rw [hrow] at h <;> cases h
  rfl

/-- A large identifier makes a long line. -/
theorem Lists.le_length {line : List UInt8} {e : Entry} (h : Lists line e) {k : Nat}
    (hk : 10 ^ k ≤ e.id.toNat) : k + 3 ≤ line.length := by
  obtain ⟨left, right, rfl, -, ⟨front, numeral, back, rfl, -, -, hdenotes⟩, hoffset⟩ := h
  have hdigits : k < numeral.length :=
    (Nat.pow_lt_pow_iff_right (by decide)).1 (Nat.lt_of_le_of_lt hk hdenotes.lt_pow)
  have hright : 0 < right.length := by
    obtain ⟨c, cs, rfl, -⟩ := hoffset.head?_ne
    exact Nat.succ_pos _
  have htext := length_le_utf8 (front ++ numeral ++ back ++ ',' :: right)
  simp only [List.length_append, List.length_cons] at htext
  omega

/-- Lines with large identifiers take their room. -/
theorem length_large_le (k : Nat) (lines : List (List UInt8)) :
    ((goodRows lines).filter fun e => decide (10 ^ k ≤ e.id.toNat)).length * (k + 4)
      ≤ (lines.map fun line => line.length + 1).sum := by
  induction lines with
  | nil => simp [goodRows]
  | cons line lines ih =>
    rw [List.map_cons, List.sum_cons]
    cases hrow : (Row.ofLine line).listed? with
    | none =>
      have hskip : goodRows (line :: lines) = goodRows lines := by simp [goodRows, hrow]
      rw [hskip]
      exact Nat.le_trans ih (Nat.le_add_left _ _)
    | some e =>
      have htake : goodRows (line :: lines) = e :: goodRows lines := by simp [goodRows, hrow]
      rw [htake]
      by_cases hlarge : 10 ^ k ≤ e.id.toNat
      · have hline := (lists_of_listed? hrow).le_length hlarge
        rw [List.filter_cons_of_pos (by simpa using hlarge), List.length_cons, Nat.add_mul]
        omega
      · rw [List.filter_cons_of_neg (by simpa using hlarge)]
        exact Nat.le_trans ih (Nat.le_add_left _ _)

/-- There are few small identifiers. -/
theorem length_small_le {es : List Entry} (hascending : es.Pairwise fun a b => a.id < b.id)
    (bound : Nat) : (es.filter fun e => !decide (bound ≤ e.id.toNat)).length ≤ bound := by
  have hnodup : ((es.filter fun e => !decide (bound ≤ e.id.toNat)).map (·.id.toNat)).Nodup := by
    refine List.pairwise_map.2 ((hascending.filter _).imp fun h => ?_)
    exact Nat.ne_of_lt (UInt64.lt_iff_toNat_lt.1 h)
  have hsub : (es.filter fun e => !decide (bound ≤ e.id.toNat)).map (·.id.toNat)
      ⊆ List.range bound := by
    intro n hn
    obtain ⟨e, he, rfl⟩ := List.mem_map.1 hn
    have hsmall := (List.mem_filter.1 he).2
    simp only [Bool.not_eq_true', decide_eq_false_iff_not, Nat.not_le] at hsmall
    exact List.mem_range.2 hsmall
  have hle := (List.subperm_of_subset hnodup hsub).length_le
  rwa [List.length_map, List.length_range] at hle

/-- The entries of a file that fits the address space fit it, too: all but few of them have an
identifier with so many digits that its line takes more room than the entry. -/
theorem room_of_length {source : List UInt8} (hsize : source.length < addressSpace) :
    (parse source).entries.length * Entry.size < addressSpace := by
  have hascending := entries_parse_ascending source
  have hsmall := length_small_le hascending (10 ^ 13)
  have hlarge := length_large_le 13 (split newline source)
  rw [sum_length_split] at hlarge
  have hrows : (parse source).entries ⊆ goodRows (split newline source) := by
    intro e he
    have hlast := (tells source).last e |>.1 he
    rw [listed_verdicts] at hlast
    obtain ⟨line, hline, hrow⟩ := List.mem_filterMap.1 (mem_of_lastOf hlast).1
    exact List.mem_filterMap.2 ⟨line, List.mem_of_mem_drop hline, hrow⟩
  have hfew := ((List.subperm_of_subset (nodup_of_ascending hascending) hrows).filter
    fun e => decide (10 ^ 13 ≤ e.id.toNat)).length_le
  have hsplit := List.length_eq_length_filter_add (l := (parse source).entries)
    fun e => decide (10 ^ 13 ≤ e.id.toNat)
  rw [addressSpace, UInt64.size] at hsize ⊢
  rw [Entry.size]
  omega

/-! ## Loading -/

/-- How a file with these bytes loads into a region of one's own. -/
structure LoadsPrivately (source : List UInt8) (verdicts : List Verdict) : Prop where
  empty : ∀ path running (h : Host) block, h.disk.read path = .ok block → octets block = source →
    ((∃ h', Store.loadCsv path running .anonymous h = (.error (.emptyCsv path), h'))
      ↔ listed verdicts = [])
  found : ∀ path running (h : Host) block, h.disk.read path = .ok block → octets block = source →
    listed verdicts ≠ [] →
      ∃ st h', Store.loadCsv path running .anonymous h = (.ok (st, (parse source).report), h')
        ∧ ∀ id, st.table.find id = (lastOf (listed verdicts) id).map Entry.offset

/-- A file with a good row is loaded, and what is found is what its good rows say. -/
theorem loadCsv_listed {path : Path} {h : Host} {block : ByteArray}
    (hread : h.disk.read path = .ok block) (hsize : (octets block).length < addressSpace)
    (hne : listed (verdicts (octets block)) ≠ []) (running : Version) :
    ∃ st h', Store.loadCsv path running .anonymous h
        = (.ok (st, (parse (octets block)).report), h')
      ∧ ∀ id, st.table.find id
        = (lastOf (listed (verdicts (octets block))) id).map Entry.offset := by
  obtain ⟨st, t, h', hload, htable, hentries⟩ := Encoding.loadCsv_private hread
    (mt entries_eq_nil_iff.1 hne) (room_of_length hsize) running
  refine ⟨st, h', hload, fun id => ?_⟩
  have hascending := entries_parse_ascending (octets block)
  rw [← hentries] at hascending
  rw [htable, ← lastOf_entries, ← hentries]
  exact OrderedTable.find_eq_lastOf (hascending.imp UInt64.le_of_lt) id

theorem loadsPrivately {source : List UInt8} (hsize : source.length < addressSpace) :
    LoadsPrivately source (verdicts source) := by
  refine ⟨?empty, ?found⟩
  case empty =>
    rintro path running h block hread rfl
    by_cases hnone : listed (verdicts (octets block)) = []
    · exact iff_of_true ⟨_, (Store.loadCsv_of_read hread).trans
        (Store.loadRows_of_empty (entries_eq_nil_iff.2 hnone))⟩ hnone
    · refine iff_of_false ?_ hnone
      rintro ⟨h', hfail⟩
      obtain ⟨st, h'', hload, -⟩ := loadCsv_listed hread hsize hnone running
      rw [hload] at hfail
      cases hfail
  case found =>
    rintro path running h block hread rfl hne
    exact loadCsv_listed hread hsize hne running

/-- **Rows are parsed line by line.** The lines of a file behind the second are judged each by its
form, and there is one way to judge them; the verdicts tell what is parsed, and what a file with
these bytes loads as. That the bytes are less than the address space is true of every file that is
read. -/
theorem parse_by_lines (source : List UInt8) :
    ∃ verdicts, (∀ vs, List.Forall₂ Judged ((source.splitOn newline).drop 2) vs ↔ vs = verdicts)
      ∧ Tells source verdicts
      ∧ (source.length < addressSpace → LoadsPrivately source verdicts) :=
  ⟨verdicts source, fun _ => forall₂_judged_iff, tells source, loadsPrivately⟩

/-- Rows with a repeated identifier, a sign and blanks, and between them a comment, a blank line and
bytes that are no text. -/
def mixedRows : List (List UInt8) :=
  [utf8 ['5', ',', '7'], utf8 ['#', '5'], [0xFF], utf8 [' '],
    utf8 ['\t', '+', '0', '5', ',', ' ', '9', '\r']]

/-- A file with these rows. -/
def mixedFile : List UInt8 :=
  [newline].intercalate (utf8 ['i'] :: utf8 ['v'] :: mixedRows)

theorem judged_mixedRows : List.Forall₂ Judged mixedRows
    [.good ⟨5, 7⟩, .skipped, .bad, .skipped, .good ⟨5, 9⟩] := by
  have hfirst : Lists (utf8 ['5', ',', '7']) ⟨5, 7⟩ :=
    ⟨['5'], ['7'], rfl, by decide, field_iff.2 rfl, field_iff.2 rfl⟩
  have hsecond : Lists (utf8 ['\t', '+', '0', '5', ',', ' ', '9', '\r']) ⟨5, 9⟩ :=
    ⟨['\t', '+', '0', '5'], [' ', '9', '\r'], rfl, by decide, field_iff.2 rfl, field_iff.2 rfl⟩
  have hbytes : ∀ text, [0xFF] ≠ utf8 text := by
    intro text htext
    have hdecode := decode?_eq_some_iff_utf8.2 htext
    simp [Utf8.decode?, Utf8.scan, Utf8.next, Utf8.lead?] at hdecode
  have hcomment : ([0xFF] : List UInt8).head? ≠ some hash := by decide
  have hblank : ¬ Blank [0xFF] := by
    rintro ⟨text, htext, -⟩
    exact hbytes text htext
  have hlists : ∀ e, ¬ Lists [0xFF] e := by
    rintro e ⟨left, right, htext, -⟩
    exact hbytes _ htext
  have hbad : Judged [0xFF] .bad := .bad hcomment hblank hlists
  exact .cons (.good hfirst) <| .cons (.comment rfl) <| .cons hbad <|
    .cons (.blank ⟨[' '], rfl, trim_eq_nil_iff.1 rfl⟩) <| .cons (.good hsecond) .nil

theorem parse_by_lines_mixed : mixedFile.length < addressSpace ∧ Tells mixedFile
    [.good ⟨5, 7⟩, .skipped, .bad, .skipped, .good ⟨5, 9⟩] ∧ LoadsPrivately mixedFile
    [.good ⟨5, 7⟩, .skipped, .bad, .skipped, .good ⟨5, 9⟩] := by
  have hsize : mixedFile.length < addressSpace := by decide
  have hlines : (mixedFile.splitOn newline).drop 2 = mixedRows := by
    rw [← split_eq_splitOn]
    decide
  obtain ⟨verdicts, hunique, htells, hloads⟩ := parse_by_lines mixedFile
  rw [hlines] at hunique
  obtain rfl := (hunique _).1 judged_mixedRows
  exact ⟨hsize, htells, hloads hsize⟩

end OffsetAtlas.Csv
