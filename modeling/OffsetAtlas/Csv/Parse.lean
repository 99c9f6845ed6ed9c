/-
OffsetAtlas.Csv.Parse — a comma-separated database as a whole.

The rows are taken in file order; a later row for an identifier replaces an earlier one and says so.
Nothing fails here: faulty rows are counted and reported, and what an empty result means is for the
caller. A map has the offset of each identifier and a list has the identifiers in the order in which
they came; a tally cannot be built in which the two differ (`Tally.known`, `Tally.distinct`). The
entries are made from the list and sorted by identifier in the end.
-/
import OffsetAtlas.Csv.Row
import OffsetAtlas.Entry
import OffsetAtlas.Notice
import Std.Data.HashMap

namespace OffsetAtlas.Csv

open Text

/-- How the rows of a file fared. -/
structure Report where
  /-- Rows that brought a new identifier. -/
  valid : Nat
  /-- Faulty rows. -/
  invalid : Nat
  /-- Rows that replaced an earlier one. -/
  duplicates : Nat
  /-- Identifiers in the result. -/
  unique : Nat
  /-- The number of entries that the file declares. -/
  expected : Option Nat
  /-- The version that the file declares. -/
  version : Option String
  deriving DecidableEq, Repr

/-- Whether the file declares a number of entries, not zero, and holds another. -/
def Report.countMismatch (r : Report) : Bool :=
  match r.expected with
  | some n => decide (0 < n ∧ n ≠ r.unique)
  | none => false

/-! ## Taking rows -/

/-- The rows taken so far. -/
structure Tally where
  /-- The identifiers, in the order in which they came. -/
  order : Array UInt64
  /-- The offset of each of them. -/
  offsets : Std.HashMap UInt64 UInt64
  known : ∀ id, id ∈ order ↔ id ∈ offsets
  distinct : order.toList.Nodup
  valid : Nat
  invalid : Nat
  duplicates : Nat
  notices : Array Notice

/-- No rows yet. -/
def Tally.empty (notices : Array Notice) : Tally where
  order := #[]
  offsets := ∅
  known := by simp
  distinct := .nil
  valid := 0
  invalid := 0
  duplicates := 0
  notices := notices

/-- What is said when a row replaces the offset `previous`. -/
def duplicateMessage (lineNumber : Nat) (id previous offset : UInt64) : String :=
  "CSV line " ++ Numeral.decimal lineNumber ++ ": Duplicate ID " ++ Numeral.decimal id.toNat
    ++ " (previous offset: 0x" ++ Numeral.hex previous.toNat
    ++ ", new offset: 0x" ++ Numeral.hex offset.toNat ++ ")"

/-- Takes a row with a new identifier. -/
def Tally.add (t : Tally) (id offset : UInt64) (hnew : id ∉ t.offsets) : Tally :=
  { t with
    order := t.order.push id
    offsets := t.offsets.insert id offset
    known := fun x => by
      rw [Array.mem_push, Std.HashMap.mem_insert, beq_iff_eq, t.known, or_comm, eq_comm]
    distinct := by
      rw [Array.toList_push, List.nodup_append]
      refine ⟨t.distinct, by simp, fun x hx y hy => ?_⟩
      rintro rfl
      obtain rfl := List.mem_singleton.1 hy
      exact hnew ((t.known _).1 (Array.mem_toList_iff.1 hx))
    valid := t.valid + 1 }

/-- Takes a row with an identifier that is there. -/
def Tally.replace (t : Tally) (lineNumber : Nat) (id offset : UInt64) (hold : id ∈ t.offsets) :
    Tally :=
  { t with
    offsets := t.offsets.insert id offset
    known := fun x => by
      rw [Std.HashMap.mem_insert, beq_iff_eq, t.known]
      exact ⟨.inr, fun h => h.elim (fun heq => heq ▸ hold) fun h => h⟩
    duplicates := t.duplicates + 1
    notices := t.notices.push (.warning (duplicateMessage lineNumber id t.offsets[id] offset)) }

/-- Takes the row of a numbered line. -/
def Tally.take (t : Tally) (lineNumber : Nat) (row : Row) : Tally :=
  match row with
  | .skipped => t
  | .bad fault =>
    { t with
      invalid := t.invalid + 1
      notices := t.notices.push (.warning (fault.message lineNumber)) }
  | .good id offset =>
    if h : id ∈ t.offsets then t.replace lineNumber id offset h else t.add id offset h

/-- Takes lines that are numbered from `first` on. -/
def Tally.takeAll (first : Nat) (lines : List (List UInt8)) (t : Tally) : Tally :=
  (lines.zipIdx first).foldl (fun t line => t.take line.2 (Row.ofLine line.1)) t

/-- An identifier that was taken, with its offset. -/
def Tally.entry (t : Tally) (id : UInt64) (h : id ∈ t.order) : Entry :=
  ⟨id, t.offsets.get id ((t.known id).1 h)⟩

/-- The entries, ascending by identifier. -/
def Tally.entries (t : Tally) : List Entry :=
  sortById (t.order.attach.map fun id => t.entry id.1 id.2).toList

/-! ## The whole file -/

/-- What a file holds and what there is to say about it. -/
structure Parsed where
  entries : List Entry
  report : Report
  notices : List Notice

/-- What is said about a declaration. -/
def declarationMessage (d : Declaration) : String :=
  "CSV Address Library metadata: expected entries = " ++ Numeral.decimal d.expected
    ++ ", version = " ++ d.version

/-- What is said about the second line, if there is one. -/
def declarationNotices : Option (Except DeclarationFault Declaration) → List Notice
  | none => []
  | some (.ok d) => [.info (declarationMessage d)]
  | some (.error fault) => [.warning fault.message]

/-- The contents of a file. -/
def parse (bytes : List UInt8) : Parsed :=
  let lines := split newline bytes
  let second := (lines[1]?).map Declaration.ofLine
  let declared := second.bind Except.toOption
  let tally := Tally.takeAll 3 (lines.drop 2) (.empty (declarationNotices second).toArray)
  let entries := tally.entries
  { entries
    report :=
      { valid := tally.valid
        invalid := tally.invalid
        duplicates := tally.duplicates
        unique := entries.length
        expected := declared.map Declaration.expected
        version := declared.map Declaration.version }
    notices := tally.notices.toList }

end OffsetAtlas.Csv
