/-
OffsetAtlas.Proofs.Database.Verdict — which tables the denylist refuses.

A denylist is built by adding denials one after another, and keeps their digests in upper case. What
it says of a table depends only on the denials that concern the table's loader and version, and on
nothing else about them: neither their order, nor how many there are, nor the case of their digests.
Main statement: a file that was decoded is loaded unless the list has to be asked about a table
without bytes, or one of the denials has the table's digest (`Database.load_judged`). How the table
was come by plays no part, since what is digested are the bytes of its region as they are; whoever
attaches to a table that somebody else has decoded is judged like the one who did.
-/
import OffsetAtlas.Proofs.Database.Decoding
import OffsetAtlas.Proofs.Packing.RoundTrip
import OffsetAtlas.Proofs.Text.Case

namespace OffsetAtlas

open Text (SameButCase)

/-! ## What a list is built from -/

/-- The denial speaks of this loader and version. -/
def Denial.Concerns (d : Denial) (loader : Loader) (version : Version) : Prop :=
  d.loader = loader ∧ d.version = version

/-- The denial as a list keeps it. -/
def Denial.kept (d : Denial) : Denial :=
  { d with digest := d.digest.map Char.toUpper }

namespace Denylist

variable {given : List Denial} {loader : Loader} {version : Version} {table : ByteArray}
  {path : Path}

/-- The list to which these were added, one after another, in letters of either case. -/
def addAll (given : List Denial) : Denylist :=
  given.foldl (fun list d => list.add d.loader d.version d.digest) empty

theorem denials_foldl_add (given : List Denial) (list : Denylist) :
    (given.foldl (fun list d => list.add d.loader d.version d.digest) list).denials
      = list.denials ++ given.map Denial.kept := by
  induction given generalizing list with
  | nil => simp
  | cons d given ih =>
    rw [List.foldl_cons, ih, add, List.append_assoc]
    rfl

theorem mem_matching_addAll {denial : Denial} :
    denial ∈ (addAll given).matching loader version
      ↔ ∃ d ∈ given, d.Concerns loader version ∧ d.kept = denial := by
  have hdenials : (addAll given).denials = given.map Denial.kept := denials_foldl_add given empty
  rw [matching, hdenials, List.mem_filter, List.mem_map, decide_eq_true_eq]
  constructor
  · rintro ⟨⟨d, hd, rfl⟩, hmatch⟩
    exact ⟨d, hd, hmatch, rfl⟩
  · rintro ⟨d, hd, hmatch, rfl⟩
    exact ⟨⟨d, hd, rfl⟩, hmatch⟩

/-- Some denial has to do with this loader and version. -/
def Concerned (given : List Denial) (loader : Loader) (version : Version) : Prop :=
  ∃ d ∈ given, d.Concerns loader version

/-- Some denial is of this table, the case of its digest aside. -/
def Listed (given : List Denial) (loader : Loader) (version : Version) (table : ByteArray) : Prop :=
  ∃ d ∈ given, d.Concerns loader version
    ∧ SameButCase d.digest (Digest.sha512Hex (octets table))

theorem matching_eq_nil_iff :
    (addAll given).matching loader version = [] ↔ ¬ Concerned given loader version := by
  rw [List.eq_nil_iff_forall_not_mem]
  constructor
  · rintro hnone ⟨d, hd, hconcerns⟩
    exact hnone d.kept (mem_matching_addAll.2 ⟨d, hd, hconcerns, rfl⟩)
  · intro hconcerned denial hmem
    obtain ⟨d, hd, hconcerns, -⟩ := mem_matching_addAll.1 hmem
    exact hconcerned ⟨d, hd, hconcerns⟩

/-- The comparison is made in upper case, and ignores case by that. -/
theorem any_matching_iff :
    (((addAll given).matching loader version).any
        (·.digest = Digest.sha512Hex (octets table))) = true
      ↔ Listed given loader version table := by
  have hupper : (Digest.sha512Hex (octets table)).map Char.toUpper
      = Digest.sha512Hex (octets table) := Text.Numeral.map_toUpper_hexBytes _
  rw [List.any_eq_true]
  constructor
  · rintro ⟨denial, hmem, hdigest⟩
    obtain ⟨d, hd, hconcerns, rfl⟩ := mem_matching_addAll.1 hmem
    exact ⟨d, hd, hconcerns, (Text.map_toUpper_eq_iff hupper).1 (of_decide_eq_true hdigest)⟩
  · rintro ⟨d, hd, hconcerns, hsame⟩
    exact ⟨d.kept, mem_matching_addAll.2 ⟨d, hd, hconcerns, rfl⟩,
      decide_eq_true ((Text.map_toUpper_eq_iff hupper).2 hsame)⟩

/-! ## What the list says -/

/-- A list that has nothing on the loader and version lets every table pass. -/
theorem check_of_unconcerned (h : ¬ Concerned given loader version) :
    (addAll given).check loader version table path = (.ok (), []) := by
  rw [check, matching_eq_nil_iff.2 h]

section

variable (hc : Concerned given loader version)

include hc

theorem check_of_empty (hsize : table.size = 0) :
    ((addAll given).check loader version table path).1 = .error (.notHashable path) := by
  rw [check]
  split
  · next hnil => exact absurd hc (matching_eq_nil_iff.1 hnil)
  · rw [if_pos hsize]

theorem check_of_listed (hsize : table.size ≠ 0) (hl : Listed given loader version table) :
    ((addAll given).check loader version table path).1 = .error (.denylisted version) := by
  rw [check]
  split
  · next hnil => exact absurd hc (matching_eq_nil_iff.1 hnil)
  · simp only [if_neg hsize]
    split
    · rfl
    · next hany => exact absurd (any_matching_iff.2 hl) hany

theorem check_of_unlisted (hsize : table.size ≠ 0) (hl : ¬ Listed given loader version table) :
    ((addAll given).check loader version table path).1 = .ok () := by
  rw [check]
  split
  · next hnil => exact absurd hc (matching_eq_nil_iff.1 hnil)
  · simp only [if_neg hsize]
    split
    · next hany => exact absurd (any_matching_iff.1 hany) hl
    · rfl

end

end Denylist

/-! ## What a load makes of it -/

namespace Database

open Denylist (Concerned Listed)

variable {given : List Denial} {source : Source} {running : Version} {config : Config}
  {h g : Host} {x : Decoded}

/-- What is answered for a table: it cannot be asked about, it is refused, or it is handed out; and
each of the three for one reason only. -/
structure Judged (given : List Denial) (source : Source) (running : Version) (x : Decoded)
    (answer : Except Failure Database) : Prop where
  unhashable : answer = .error (.notHashable source.path)
    ↔ Concerned given source.loader running ∧ x.store.region.bytes.size = 0
  denied : answer = .error (.denylisted running)
    ↔ x.store.region.bytes.size ≠ 0
      ∧ Listed given source.loader running x.store.region.bytes
  passed : answer = .ok (opened source running x)
    ↔ ¬ (Concerned given source.loader running ∧ x.store.region.bytes.size = 0)
      ∧ ¬ (x.store.region.bytes.size ≠ 0
        ∧ Listed given source.loader running x.store.region.bytes)

/-- **No listed table is handed out, and no other one is refused.** Whatever the file is and however
its table was come by, once it is decoded the load answers as the denials say. -/
theorem load_judged (hlist : config.denylist = .addAll given)
    (hdecode : decode source running config.region h = (.ok x, g)) :
    Judged given source running x (load source running config h).1 := by
  rw [load_of_check hdecode, hlist]
  by_cases hc : Concerned given source.loader running
  · by_cases hsize : x.store.region.bytes.size = 0
    · rw [Denylist.check_of_empty hc hsize]
      constructor <;> simp [Except.map, hc, hsize]
    · by_cases hl : Listed given source.loader running x.store.region.bytes
      · rw [Denylist.check_of_listed hc hsize hl]
        constructor <;> simp [Except.map, hsize, hl]
      · rw [Denylist.check_of_unlisted hc hsize hl]
        constructor <;> simp [Except.map, hsize, hl]
  · have hl : ¬ Listed given source.loader running x.store.region.bytes := by
      rintro ⟨d, hd, hconcerns, -⟩
      exact hc ⟨d, hd, hconcerns⟩
    rw [Denylist.check_of_unconcerned hc]
    constructor <;> simp [Except.map, hc, hl]

/-! ## A listed file -/

theorem decode_packed {path : Path} {f : File} {entries : List Entry} (loader : Loader)
    (location : RegionLocation) (hfile : h.disk.file? path = some f)
    (hbytes : octets f.contents = Packed.encode entries)
    (hroom : Packed.headerSize + entries.length * Entry.size < addressSpace) :
    ∃ t : OrderedTable, decode ⟨path, loader, .packed⟩ running location h
        = (.ok ⟨.packed, ⟨.ofFile path f, .ordered t⟩, none, none⟩, h) ∧ t.entries = entries := by
  obtain ⟨t, hload, ht⟩ := Packing.loadPacked_encode hfile hbytes hroom
  exact ⟨t, Attempt.bind_of_ok hload _, ht⟩

/-- What is known of a packed file with one entry: its digest in lower case, and for another version
the same digest as it is written. -/
def sampleDenials : List Denial :=
  let digest := Digest.sha512Hex (Packed.encode [⟨1, 16⟩])
  [⟨.f4se, ⟨1, 10, 984, 0⟩, digest⟩, ⟨.f4se, ⟨1, 10, 163, 0⟩, digest.map Char.toLower⟩]

/-- The file is refused for the one version, and is handed out for a version that nothing is said
of. -/
theorem load_judged_lower_case :
    (load ⟨⟨"a.bin"⟩, .f4se, .packed⟩ ⟨1, 10, 163, 0⟩
        ⟨none, none, none, .anonymous, .addAll sampleDenials⟩
        (.ofDisk (Packing.packedDisk [⟨1, 16⟩]))).1 = .error (.denylisted ⟨1, 10, 163, 0⟩)
      ∧ ∃ db, (load ⟨⟨"a.bin"⟩, .f4se, .packed⟩ ⟨1, 10, 980, 0⟩
        ⟨none, none, none, .anonymous, .addAll sampleDenials⟩
        (.ofDisk (Packing.packedDisk [⟨1, 16⟩]))).1 = .ok db := by
  have hfile := Packing.file_packedDisk [⟨1, 16⟩]
  refine ⟨?denied, ?passed⟩
  case denied =>
    obtain ⟨t, hdecode, -⟩ := decode_packed (h := .ofDisk _) .f4se .anonymous hfile rfl (by decide)
    refine (load_judged rfl hdecode).denied.2 ⟨nofun, ?_⟩
    exact ⟨_, List.mem_cons_of_mem _ List.mem_cons_self, ⟨rfl, rfl⟩,
      Text.sameButCase_toLower _⟩
  case passed =>
    obtain ⟨t, hdecode, -⟩ := decode_packed (h := .ofDisk _) .f4se .anonymous hfile rfl (by decide)
    have hsilent : ¬ Concerned sampleDenials .f4se ⟨1, 10, 980, 0⟩ := by
      simp [Concerned, sampleDenials, Denial.Concerns]
    refine ⟨_, (load_judged rfl hdecode).passed.2 ⟨fun h => hsilent h.1, ?_⟩⟩
    rintro ⟨-, d, hd, hconcerns, -⟩
    exact hsilent ⟨d, hd, hconcerns⟩

end Database

end OffsetAtlas
