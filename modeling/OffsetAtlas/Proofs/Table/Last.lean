/-
OffsetAtlas.Proofs.Table.Last — the last entry with an identifier.

Rows of text, records of a delta file and entries of a table may all repeat an identifier, and in
each of them the last one counts. `lastOf` is that one; it is told by what stands behind it
(`lastOf_eq_some_iff`), and it is there unless nothing has the identifier (`lastOf_eq_none_iff`).
-/
import OffsetAtlas.Entry

namespace OffsetAtlas

/-- The last entry with an identifier. -/
def lastOf (entries : List Entry) (id : UInt64) : Option Entry :=
  entries.findRev? fun e => e.id = id

variable {entries back : List Entry} {e : Entry} {id : UInt64}

theorem lastOf_eq_getLast? (entries : List Entry) (id : UInt64) :
    lastOf entries id = (entries.filter fun e => e.id = id).getLast? := by
  rw [lastOf, List.findRev?_eq_find?_reverse, List.getLast?_filter]

/-- The last entry is followed by others only. -/
theorem lastOf_eq_some_iff :
    lastOf entries id = some e
      ↔ e.id = id ∧ ∃ front back, entries = front ++ e :: back ∧ ∀ x ∈ back, x.id ≠ id := by
  rw [lastOf, List.findRev?_eq_find?_reverse, List.find?_eq_some_iff_append, decide_eq_true_eq]
  refine and_congr_right fun _ => ?_
  constructor
  · rintro ⟨as, bs, hsplit, hothers⟩
    refine ⟨bs.reverse, as.reverse, ?_, fun x hx => ?_⟩
    · rw [← List.reverse_reverse entries, hsplit]
      simp
    · simpa using hothers x (List.mem_reverse.1 hx)
  · rintro ⟨front, back, rfl, hothers⟩
    exact ⟨back.reverse, front.reverse, by simp, by simpa using hothers⟩

theorem lastOf_eq_none_iff : lastOf entries id = none ↔ ∀ e ∈ entries, e.id ≠ id := by
  simp [lastOf, List.findRev?_eq_find?_reverse]

/-- An entry in front counts only where none behind it has the identifier. -/
theorem lastOf_cons (e : Entry) (entries : List Entry) (id : UInt64) :
    lastOf (e :: entries) id
      = (lastOf entries id).or (if e.id = id then some e else none) := by
  simp only [lastOf, List.findRev?]
  cases entries.findRev? fun e => e.id = id with
  | none => by_cases h : e.id = id <;> simp [h]
  | some x => simp

theorem lastOf_singleton (e : Entry) (id : UInt64) :
    lastOf [e] id = if e.id = id then some e else none :=
  lastOf_cons e [] id

/-- What stands behind counts first. -/
theorem lastOf_append (front back : List Entry) (id : UInt64) :
    lastOf (front ++ back) id = (lastOf back id).or (lastOf front id) := by
  rw [lastOf_eq_getLast?, lastOf_eq_getLast?, lastOf_eq_getLast?, List.filter_append,
    List.getLast?_append]

theorem mem_of_lastOf (h : lastOf entries id = some e) : e ∈ entries ∧ e.id = id := by
  obtain ⟨hid, front, back, rfl, -⟩ := lastOf_eq_some_iff.1 h
  exact ⟨by simp, hid⟩

/-- Where the identifiers ascend strictly every entry is the last with its own. -/
theorem lastOf_eq_some_iff_mem (hascending : entries.Pairwise fun a b => a.id < b.id) :
    lastOf entries e.id = some e ↔ e ∈ entries := by
  refine ⟨fun h => (mem_of_lastOf h).1, fun h => ?_⟩
  obtain ⟨front, back, rfl⟩ := List.append_of_mem h
  refine lastOf_eq_some_iff.2 ⟨rfl, front, back, rfl, fun x hx => ?_⟩
  rw [List.pairwise_append, List.pairwise_cons] at hascending
  exact (UInt64.ne_of_lt (hascending.2.1.1 x hx)).symm

/-- There is a last entry for the identifiers that there are. -/
theorem lastOf_isSome_iff : (lastOf entries id).isSome ↔ id ∈ entries.map Entry.id := by
  simp [lastOf, List.findRev?_eq_find?_reverse]

/-- Where something has the identifier there is a last one that has it. -/
theorem lastOf_isSome (h : e ∈ entries) : ∃ last, lastOf entries e.id = some last :=
  Option.isSome_iff_exists.1 (lastOf_isSome_iff.2 (List.mem_map_of_mem h))

end OffsetAtlas
