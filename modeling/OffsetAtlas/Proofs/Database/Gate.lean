/-
OffsetAtlas.Proofs.Database.Gate — which files the version check lets in.

The version in a header is four words of 32 bits, and the running version four numbers of 16. What
is compared is the low half of each word, because a version is made of words before it is looked at
(`Version.ofWords`). So a header that differs from the running version in its low halves is refused,
and nothing is changed for it; but among the headers that are let in are those that differ in high
halves only (`Gated.admits`). The check is exact for words below 65536, and for no others
(`Version.Admits.exact`).

Both headers that carry a version read it by the same four steps, and one lemma on these steps
(`Reader.version_of_ok`) serves the two of them.
-/
import OffsetAtlas.Proofs.Bytes.Reading
import OffsetAtlas.Proofs.Database.Attaching

namespace OffsetAtlas

open Reader (storedWords)

/-! ## Words and versions -/

namespace Version

/-- The components of a version as numbers. -/
def numbers (v : Version) : List Nat :=
  v.components.map UInt16.toNat

theorem numbers_lt (v : Version) : ∀ n ∈ v.numbers, n < UInt16.size := by
  intro n hn
  obtain ⟨c, -, rfl⟩ := List.mem_map.1 hn
  exact c.toNat_lt

/-- Stored words with which a file passes for one of this version. -/
structure Admits (running : Version) (words : List Nat) : Prop where
  halves : words.map (· % UInt16.size) = running.numbers
  /-- They are the version's own components exactly if none of them has a high half. -/
  exact : words = running.numbers ↔ ∀ w ∈ words, w < UInt16.size

theorem admits_of_halves {running : Version} {words : List Nat}
    (h : words.map (· % UInt16.size) = running.numbers) : running.Admits words := by
  refine ⟨h, ?_, ?_⟩
  · intro hwords
    rw [hwords]
    exact numbers_lt running
  · intro hsmall
    have hself : words.map (· % UInt16.size) = words.map id :=
      List.map_congr_left fun w hw => Nat.mod_eq_of_lt (hsmall w hw)
    rw [← h, hself, List.map_id]

end Version

/-! ## Headers -/

theorem Delta.Header.version_of_read {payload : List UInt8} {header : Delta.Header} {r : Reader}
    (hread : Attempt.on (.ofBytes payload) read = (.ok header, r)) :
    header.version.numbers = (storedWords payload).map (· % UInt16.size) := by
  obtain ⟨v, _, hversion, hread⟩ := Attempt.bind_eq_ok.1 hread
  obtain ⟨n, _, -, hread⟩ := Attempt.bind_eq_ok.1 hread
  split at hread
  · cases hread
  · obtain ⟨name, _, -, hread⟩ := Attempt.bind_eq_ok.1 hread
    obtain ⟨size, _, -, hread⟩ := Attempt.bind_eq_ok.1 hread
    obtain ⟨count, _, -, hread⟩ := Attempt.bind_eq_ok.1 hread
    cases hread
    exact Reader.version_of_ok hversion

/-- The words of a dense file stand behind its tag. -/
theorem Dense.Header.version_of_parse {bs : List UInt8} {header : Dense.Header}
    (hparse : parse bs = .ok header) :
    header.version.numbers = (storedWords (bs.drop 4)).map (· % UInt16.size) := by
  have hread : read (.ofBytes bs) = (.ok header, (read (.ofBytes bs)).2) := Prod.ext hparse rfl
  obtain ⟨tag, _, htag, hread⟩ := Attempt.bind_eq_ok.1 hread
  split at hread
  · cases hread
  · obtain ⟨v, _, hversion, hread⟩ := Attempt.bind_eq_ok.1 hread
    obtain ⟨name, _, -, hread⟩ := Attempt.bind_eq_ok.1 hread
    obtain ⟨size, _, -, hread⟩ := Attempt.bind_eq_ok.1 hread
    obtain ⟨kind, _, -, hread⟩ := Attempt.bind_eq_ok.1 hread
    obtain ⟨count, _, -, hread⟩ := Attempt.bind_eq_ok.1 hread
    cases hread
    have hrest := (Reader.u32_of_ok htag).2
    have hwords := Reader.version_of_ok hversion
    rw [hrest] at hwords
    exact hwords

/-- The words are in front of where the header ends. -/
theorem storedWords_take {n k : Nat} (h : k + 16 ≤ n) (bs : List UInt8) :
    storedWords ((bs.take n).drop k) = storedWords (bs.drop k) := by
  refine List.map_congr_left ?_
  intro i hi
  have hi : i < 4 := List.mem_range.1 hi
  have hroom : min 4 (n - k - 4 * i) = 4 := by omega
  rw [List.drop_take, List.drop_take, List.take_take, hroom]

/-! ## Files whose header carries a version -/

/-- What a load that checks a version is given: a delta file's bytes behind the tag, or the region
of a whole dense file. -/
inductive Gated where
  | delta (payload : List UInt8) (location : RegionLocation)
  | dense (region : Region)

namespace Gated

/-- The four words of the header's version. -/
def words : Gated → List Nat
  | delta payload _ => storedWords payload
  | dense region => storedWords ((octets region.bytes).drop 4)

/-- The header can be read, and this is the version it names. -/
def Names (c : Gated) (v : Version) : Prop :=
  match c with
  | delta payload _ => ∃ header r,
    Attempt.on (.ofBytes payload) Delta.Header.read = (.ok header, r) ∧ header.version = v
  | dense region => ∃ header,
    Dense.Header.parse (region.bytes.data.toList.take Dense.headerSize) = .ok header
      ∧ header.version = v

/-- The load that checks the version. -/
def load (running : Version) : Gated → HostM Store
  | delta payload location => Prod.fst <$> Store.loadDelta payload running location
  | dense region => Prod.fst <$> Store.ofDenseRegion region running

variable {c : Gated} {running v : Version} {h h' : Host} {st : Store}

/-- The version that a header names is the low halves of its words. -/
theorem Names.numbers (hv : c.Names v) : v.numbers = c.words.map (· % UInt16.size) := by
  cases c with
  | delta payload location =>
    obtain ⟨header, r, hread, rfl⟩ := hv
    exact Delta.Header.version_of_read hread
  | dense region =>
    obtain ⟨header, hparse, rfl⟩ := hv
    rw [Dense.Header.version_of_parse hparse, storedWords_take (by decide)]
    rfl

/-- A load that succeeds has read the running version. -/
theorem names_of_load (hload : c.load running h = (.ok st, h')) : c.Names running := by
  cases c with
  | delta payload location =>
    obtain ⟨⟨_, header⟩, hload, -⟩ := Attempt.map_eq_ok.1 hload
    obtain ⟨r, _, _, hread, hcheck, -⟩ := Store.loadDelta_eq_ok hload
    refine ⟨header, r, hread, ?_⟩
    by_contra hne
    rw [Store.checkDelta, if_pos hne] at hcheck
    cases hcheck
  | dense region =>
    obtain ⟨⟨_, header⟩, hload, -⟩ := Attempt.map_eq_ok.1 hload
    obtain ⟨_, hheader, -⟩ := Store.ofDenseRegion_eq_ok hload
    rw [Dense.headerFor] at hheader
    split at hheader
    · cases hheader
    · next found hparse =>
      split at hheader
      · next hversion => exact ⟨found, hparse, hversion⟩
      · cases hheader

/-- A header of another version is refused, and the load ends there. -/
theorem Names.refused (hv : c.Names v) (hne : v ≠ running) (h : Host) :
    c.load running h = (.error (.versionMismatch running v), h) := by
  cases c with
  | delta payload location =>
    obtain ⟨header, r, hread, rfl⟩ := hv
    have hrefused : ((Attempt.on (.ofBytes payload) Delta.Header.read).1.bind fun header =>
        Store.checkDelta running header) = .error (.versionMismatch running header.version) := by
      rw [hread]
      exact if_pos hne
    rw [load, Attempt.map_apply, Store.loadDelta_refused hrefused]
  | dense region =>
    obtain ⟨header, hparse, rfl⟩ := hv
    have hrefused : Attempt.ofExcept (Dense.headerFor region.bytes running) h
        = (.error (.versionMismatch running header.version), h) := by
      rw [Attempt.ofExcept_apply, Dense.headerFor, hparse]
      exact congrArg (·, h) (if_neg hne)
    rw [load, Attempt.map_apply, Store.ofDenseRegion, Attempt.bind_of_error hrefused]

/-- **The version gate.** What is let in agrees with the running version in the low half of each
word, and so in the whole word exactly where the high halves are zero; what differs in a low half is
refused by name, and nothing is changed for it. -/
theorem admits (c : Gated) (running : Version) (h : Host) :
    (∀ st h', c.load running h = (.ok st, h') → running.Admits c.words)
      ∧ ∀ v, c.Names v → c.words.map (· % UInt16.size) ≠ running.numbers →
        c.load running h = (.error (.versionMismatch running v), h) := by
  refine ⟨?accepted, ?refused⟩
  case accepted =>
    intro st h' hload
    exact Version.admits_of_halves (names_of_load hload).numbers.symm
  case refused =>
    intro v hv hne
    refine hv.refused ?_ h
    rintro rfl
    exact hne hv.numbers.symm

/-! ## A version in high halves -/

/-- A delta file for 65537.0.0.0, with one record. -/
def highDelta : List UInt8 :=
  [65537, 0, 0, 0, 0, 8, 1].flatMap (Bytes.write 4) ++ [0x11]

/-- A dense file for 65537.0.0.0, without slots. -/
def highDense : Region :=
  .ofBytes "" ⟨([5, 65537, 0, 0, 0].flatMap (Bytes.write 4) ++ List.replicate Dense.nameField 0
    ++ [8, 0, 0].flatMap (Bytes.write 4)).toArray⟩

theorem accepted_highDelta : Encoding.delta.Accepted highDelta ⟨1, 0, 0, 0⟩ [⟨1, 1⟩] where
  entries := by
    have hread : Attempt.on (.ofBytes highDelta) Delta.Header.read
        = (.ok ⟨⟨1, 0, 0, 0⟩, Text.Utf8.untilNul [], 8, 1⟩, ⟨28, [0x11]⟩) := rfl
    have hdecode : (Attempt.on ⟨28, [0x11]⟩ (Delta.decodeRecords 8 1)).1 = .ok [⟨1, 1⟩] := rfl
    simp only [Encoding.entries?, hread, hdecode]
    simp [Except.toOption, sortById]
  bounded := by decide
  accepted := rfl

theorem load_highDelta :
    ∃ st h', (delta highDelta .anonymous).load ⟨1, 0, 0, 0⟩ (.ofDisk Encoding.bareDisk)
      = (.ok st, h') := by
  obtain ⟨st, -, hstore, -⟩ := accepted_highDelta.load_private ⟨""⟩ (.ofDisk Encoding.bareDisk)
  exact ⟨st, _, Prod.ext hstore rfl⟩

theorem load_highDense :
    ∃ st h', (dense highDense).load ⟨1, 0, 0, 0⟩ (.ofDisk Encoding.bareDisk) = (.ok st, h') :=
  ⟨_, _, rfl⟩

/-- Files for another version are let in. -/
theorem high_half_loads :
    ((∃ st h', (delta highDelta .anonymous).load ⟨1, 0, 0, 0⟩ (.ofDisk Encoding.bareDisk)
        = (.ok st, h'))
      ∧ (delta highDelta .anonymous).words ≠ (⟨1, 0, 0, 0⟩ : Version).numbers)
    ∧ ((∃ st h', (dense highDense).load ⟨1, 0, 0, 0⟩ (.ofDisk Encoding.bareDisk) = (.ok st, h'))
      ∧ (dense highDense).words ≠ (⟨1, 0, 0, 0⟩ : Version).numbers) :=
  ⟨⟨load_highDelta, by decide⟩, ⟨load_highDense, by decide⟩⟩

theorem admits_high_half :
    (⟨1, 0, 0, 0⟩ : Version).Admits (delta highDelta .anonymous).words
      ∧ (⟨1, 0, 0, 0⟩ : Version).Admits (dense highDense).words
      ∧ (delta highDelta .anonymous).load ⟨2, 0, 0, 0⟩ (.ofDisk Encoding.bareDisk)
        = (.error (.versionMismatch ⟨2, 0, 0, 0⟩ ⟨1, 0, 0, 0⟩), .ofDisk Encoding.bareDisk) := by
  obtain ⟨st, h', hdelta⟩ := load_highDelta
  obtain ⟨st', h'', hdense⟩ := load_highDense
  refine ⟨(admits _ _ _).1 st h' hdelta, (admits _ _ _).1 st' h'' hdense, ?_⟩
  exact (admits _ _ _).2 _ (names_of_load hdelta) (by decide)

end Gated

end OffsetAtlas
