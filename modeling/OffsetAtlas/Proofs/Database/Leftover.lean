/-
OffsetAtlas.Proofs.Database.Leftover — region files whose owner did not get to the end.

An owner makes the file of its region, gives it its size and then writes the entries in order. If it
stops on the way the file stays (`Progress.contents`), and who attaches to it later looks at its
size alone. Main statement: the later load fails, or its look-ups answer as those of a private load,
if and only if the leftover is harmless: the file never got its size, all entries were written, or
the last entry is the one that zeros spell (`load_of_progress`).

That no other case is harmless shows in the look-up of the greatest identifier. No entry of the
leftover exceeds it, so the bisection ends behind the last entry, and that one is still zeros.
-/
import OffsetAtlas.Proofs.Database.Attaching

namespace OffsetAtlas

open Region (Ready fitted)

/-! ## Progress -/

/-- How far the owner of a region came. -/
inductive Progress where
  /-- The file is made, and has no size yet. -/
  | created
  /-- The file has its size, and some entries are written; behind them are zeros. -/
  | written (k : Nat)
  deriving DecidableEq, Repr

namespace Progress

/-- What the file of a region holds then. -/
def contents (es : List Entry) : Progress → ByteArray
  | .created => .empty
  | .written k => fitted (es.length * Entry.size) (tableBlock (es.take k))

/-- Whether the file does no harm. -/
def Harmless (es : List Entry) : Progress → Prop
  | .created => True
  | .written k => es.length ≤ k ∨ es.getLast? = some ⟨0, 0⟩

instance (es : List Entry) (p : Progress) : Decidable (p.Harmless es) := by
  cases p <;> unfold Harmless <;> infer_instance

/-- The entries in a file whose first entries are written. -/
def entriesAfter (es : List Entry) (k : Nat) : List Entry :=
  es.take k ++ List.replicate (es.length - k) ⟨0, 0⟩

end Progress

/-! ## What zeros spell -/

theorem tableBytes_append (es fs : List Entry) :
    tableBytes (es ++ fs) = tableBytes es ++ tableBytes fs :=
  List.flatMap_append

/-- Zeros are entries with identifier and offset zero. -/
theorem tableBytes_replicate_zero (n : Nat) :
    tableBytes (List.replicate n ⟨0, 0⟩) = List.replicate (n * Entry.size) 0 := by
  induction n with
  | zero => simp [tableBytes]
  | succ n ih =>
    have hzero : Entry.bytes ⟨0, 0⟩ = List.replicate Entry.size 0 := by decide
    rw [List.replicate_succ, tableBytes, List.flatMap_cons, ← tableBytes, ih, hzero,
      List.replicate_append_replicate, Nat.add_mul, Nat.one_mul, Nat.add_comm]

/-- Filling a block up with zeros adds zero entries. -/
theorem fitted_tableBlock {es : List Entry} {n : Nat} (h : es.length ≤ n) :
    fitted (n * Entry.size) (tableBlock es)
      = tableBlock (es ++ List.replicate (n - es.length) ⟨0, 0⟩) := by
  unfold fitted
  split
  · next hsize =>
    rw [size_tableBlock] at hsize
    have hn : n - es.length = 0 := by
      have := Nat.eq_of_mul_eq_mul_right (by decide) hsize
      omega
    rw [hn, List.replicate_zero, List.append_nil]
  · have hle : (tableBytes es).length ≤ n * Entry.size := by
      rw [length_tableBytes]
      exact Nat.mul_le_mul_right _ h
    simp only [tableBlock, List.take_of_length_le hle, length_tableBytes, tableBytes_append,
      tableBytes_replicate_zero, Nat.sub_mul]

theorem Progress.contents_written (es : List Entry) (k : Nat) :
    (Progress.written k).contents es = tableBlock (entriesAfter es k) := by
  have hk : es.length - (es.take k).length = es.length - k := by
    rw [List.length_take]
    omega
  rw [contents, fitted_tableBlock (List.length_take_le' ..), hk]
  rfl

theorem Progress.length_entriesAfter (es : List Entry) (k : Nat) :
    (entriesAfter es k).length = es.length := by
  simp only [entriesAfter, List.length_append, List.length_take, List.length_replicate]
  omega

/-! ## Look-ups in a leftover -/

namespace OrderedTable

variable {t u : OrderedTable} {es : List Entry} {k : Nat}

theorem getLast?_entriesAfter (h : k < es.length) :
    (Progress.entriesAfter es k).getLast? = some ⟨0, 0⟩ := by
  obtain ⟨n, hn⟩ : ∃ n, es.length - k = n + 1 := ⟨es.length - k - 1, by omega⟩
  rw [Progress.entriesAfter, hn, List.replicate_succ', ← List.append_assoc]
  exact List.getLast?_concat

/-- The greatest identifier exceeds those of a leftover as well. -/
theorem le_of_mem_entriesAfter {id : UInt64} (hid : ∀ e ∈ es, e.id ≤ id) :
    ∀ e ∈ Progress.entriesAfter es k, e.id ≤ id := by
  intro e he
  rcases List.mem_append.1 he with he | he
  · exact hid e (List.mem_of_mem_take he)
  · obtain rfl := List.eq_of_mem_replicate he
    exact UInt64.zero_le

theorem entriesAfter_of_le (h : es.length ≤ k) : Progress.entriesAfter es k = es := by
  rw [Progress.entriesAfter, List.take_of_length_le h, Nat.sub_eq_zero_of_le h]
  exact List.append_nil es

theorem le_getLast {last : Entry} (hsorted : es.Pairwise fun a b => a.id ≤ b.id)
    (hlast : es.getLast? = some last) : ∀ e ∈ es, e.id ≤ last.id := by
  obtain ⟨front, rfl⟩ := List.getLast?_eq_some_iff.1 hlast
  obtain ⟨-, -, hle⟩ := List.pairwise_append.1 hsorted
  intro e he
  rcases List.mem_append.1 he with he | he
  · exact hle e he last (List.mem_singleton.2 rfl)
  · rw [List.mem_singleton.1 he]
    exact UInt64.le_refl _

/-- **A leftover answers as the whole table exactly if it is harmless.** -/
theorem find_eq_iff (ht : t.entries = Progress.entriesAfter es k) (hu : u.entries = es)
    (hsorted : es.Pairwise fun a b => a.id ≤ b.id) :
    (∀ id, t.find id = u.find id) ↔ (Progress.written k).Harmless es := by
  rcases Nat.lt_or_ge k es.length with hk | hk
  · obtain ⟨last, hlast⟩ : ∃ last, es.getLast? = some last :=
      ⟨_, List.getLast?_eq_some_getLast (List.ne_nil_of_length_pos (Nat.zero_lt_of_lt hk))⟩
    have hmax := le_getLast hsorted hlast
    -- from the greatest identifier on, both tables are asked for their last entry
    have hfind : ∀ id, last.id ≤ id → t.find id = (if 0 = id then some 0 else none)
        ∧ u.find id = (if last.id = id then some last.offset else none) := by
      intro id hid
      have hall : ∀ e ∈ es, e.id ≤ id := fun e he => UInt64.le_trans (hmax e he) hid
      rw [find_of_forall_le (ht ▸ le_of_mem_entriesAfter hall), ht, getLast?_entriesAfter hk,
        find_of_forall_le (hu ▸ hall), hu, hlast]
      exact ⟨rfl, rfl⟩
    constructor
    · intro h
      obtain ⟨hleft, hright⟩ := hfind last.id (UInt64.le_refl _)
      have heq := hleft.symm.trans ((h last.id).trans hright)
      rw [if_pos rfl] at heq
      split at heq
      · next hid =>
        obtain ⟨id, offset⟩ := last
        cases Option.some.inj heq
        obtain rfl : 0 = id := hid
        exact .inr hlast
      · cases heq
    · rintro (hle | hzero) id
      · exact absurd hk (Nat.not_lt.2 hle)
      · obtain rfl : last = ⟨0, 0⟩ := Option.some.inj (hlast.symm.trans hzero)
        obtain ⟨hleft, hright⟩ := hfind id UInt64.zero_le
        rw [hleft, hright]
  · refine ⟨fun _ => .inl hk, fun _ id => find_congr ?_ id⟩
    rw [ht, hu, entriesAfter_of_le hk]

end OrderedTable

/-! ## Loads that find a leftover -/

namespace Encoding

variable {e : Encoding} {path path' : Path} {source : List UInt8} {v : Version} {st : Store}
  {h hp : Host} {dir : Path} {place : Place} {id : FileId} {p : Progress}

/-- **When a leftover region is trusted rightly.** The later load fails or gives a table with the
look-ups of a private load, if and only if the leftover is harmless. -/
theorem load_of_progress (hload : (e.load path source v .anonymous hp).1 = .ok st)
    (hr : Ready h.disk dir place (regionName v source))
    (hn : h.disk.node? (place ++ [regionName v source])
      = some (.file ⟨id, p.contents st.table.entries⟩)) :
    ((∃ failure, (e.load path' source v (.shared dir) h).1 = .error failure)
        ∨ ∃ st', (e.load path' source v (.shared dir) h).1 = .ok st'
          ∧ ∀ id, st'.table.find id = st.table.find id)
      ↔ p.Harmless st.table.entries := by
  obtain ⟨es, ha⟩ := accepted_of_load hload
  obtain ⟨_, u, hst, hu, hes⟩ := ha.load_private path hp
  cases hload.symm.trans hst
  have hentries : st.table.entries = es := by
    rw [hu]
    exact hes
  rw [hentries] at hn ⊢
  cases p with
  | created =>
    refine ⟨fun _ => trivial, fun _ => ?_⟩
    -- no bytes are the whole table if there are no entries, and too few if there are any
    by_cases hsize : (0 : Nat) = es.length * Entry.size
    · obtain rfl : es = [] := by
        have hlength := Nat.eq_of_mul_eq_mul_right (by decide : 0 < Entry.size)
          ((Nat.zero_mul _).trans hsize)
        exact List.length_eq_zero_iff.1 hlength.symm
      obtain ⟨st', t, _, hst', -, -, ht, hfound⟩ := ha.load_of_block hr hn [] rfl rfl path'
      refine .inr ⟨st', congrArg Prod.fst hst', fun id => ?_⟩
      rw [ht, hu]
      exact OrderedTable.find_congr (hfound.trans hes.symm) id
    · exact .inl ⟨_, ha.load_of_size_ne hr hn hsize path'⟩
  | written k =>
    obtain ⟨st', t, _, hst', -, -, ht, hfound⟩ := ha.load_of_block hr hn _
      (Progress.contents_written es k) (Progress.length_entriesAfter es k) path'
    rw [← OrderedTable.find_eq_iff hfound hes (entries?_ascending ha.entries), hst', hu]
    constructor
    · rintro (⟨failure, hfailure⟩ | ⟨_, hok, hfind⟩)
      · cases hfailure
      · cases hok
        rw [ht] at hfind
        exact hfind
    · intro hfind
      refine .inr ⟨st', rfl, ?_⟩
      rw [ht]
      exact hfind

/-- A region directory with a leftover of the one-entry delta file. -/
def leftoverDisk (p : Progress) : Disk :=
  ⟨[(["regions"], .directory),
    (["regions", regionName ⟨1, 0, 0, 0⟩ polyglot], .file ⟨⟨0⟩, p.contents [⟨1, 1⟩]⟩)], [], 1⟩

theorem node?_leftoverDisk (p : Progress) :
    (leftoverDisk p).node? (["regions"] ++ [regionName ⟨1, 0, 0, 0⟩ polyglot])
      = some (.file ⟨⟨0⟩, p.contents [⟨1, 1⟩]⟩) := by
  simp [Disk.node?, leftoverDisk, List.lookup_cons]

theorem ready_leftoverDisk (p : Progress) :
    Ready (leftoverDisk p) ⟨"regions"⟩ ["regions"] (regionName ⟨1, 0, 0, 0⟩ polyglot) where
  found := find_regions
  fits := fitsBelow_regionName (by decide) _ _
  fitsLock := fitsBelow_lockName (by decide) _ _
  lockFree := by
    have hne : (lockName (regionName ⟨1, 0, 0, 0⟩ polyglot)
        == regionName ⟨1, 0, 0, 0⟩ polyglot) = false := by
      simpa using lockName_ne_regionName _ ⟨1, 0, 0, 0⟩ polyglot
    simp [Disk.node?, leftoverDisk, List.lookup_cons, hne]

theorem load_of_progress_sample :
    ∃ st, (delta.load ⟨"a.bin"⟩ polyglot ⟨1, 0, 0, 0⟩ .anonymous (.ofDisk bareDisk)).1 = .ok st
      ∧ (((∃ failure, (delta.load ⟨"a.bin"⟩ polyglot ⟨1, 0, 0, 0⟩ (.shared ⟨"regions"⟩)
            (.ofDisk (leftoverDisk (.written 0)))).1 = .error failure)
          ∨ ∃ st', (delta.load ⟨"a.bin"⟩ polyglot ⟨1, 0, 0, 0⟩ (.shared ⟨"regions"⟩)
            (.ofDisk (leftoverDisk (.written 0)))).1 = .ok st'
            ∧ ∀ id, st'.table.find id = st.table.find id)
        ↔ (Progress.written 0).Harmless st.table.entries) := by
  obtain ⟨st, t, hst, ht, hes⟩ :=
    accepted_delta_polyglot.load_private ⟨"a.bin"⟩ (.ofDisk bareDisk)
  have hentries : st.table.entries = [⟨1, 1⟩] := by
    rw [ht]
    exact hes
  have hn := node?_leftoverDisk (.written 0)
  rw [← hentries] at hn
  exact ⟨st, hst, load_of_progress hst (ready_leftoverDisk (.written 0)) hn⟩

/-- An owner that stopped in front of the first entry leaves a region in which nothing is found. -/
theorem leftover_misses_entry :
    ∃ st st', (delta.load ⟨"a.bin"⟩ polyglot ⟨1, 0, 0, 0⟩ .anonymous (.ofDisk bareDisk)).1 = .ok st
      ∧ (delta.load ⟨"a.bin"⟩ polyglot ⟨1, 0, 0, 0⟩ (.shared ⟨"regions"⟩)
        (.ofDisk (leftoverDisk (.written 0)))).1 = .ok st'
      ∧ st.table.find 1 = some 1 ∧ st'.table.find 1 = none := by
  obtain ⟨st, t, hst, ht, hes⟩ :=
    accepted_delta_polyglot.load_private ⟨"a.bin"⟩ (.ofDisk bareDisk)
  obtain ⟨st', u, _, hst', -, -, hu, hfound⟩ :=
    accepted_delta_polyglot.load_of_block (h := .ofDisk (leftoverDisk (.written 0)))
      (ready_leftoverDisk (.written 0)) (node?_leftoverDisk (.written 0))
      _ (Progress.contents_written [⟨1, 1⟩] 0) rfl ⟨"a.bin"⟩
  refine ⟨st, st', hst, congrArg Prod.fst hst', ?_, ?_⟩
  · rw [ht]
    exact OrderedTable.find_singleton hes 1
  · rw [hu]
    exact OrderedTable.find_singleton hfound 1

end Encoding

end OffsetAtlas
