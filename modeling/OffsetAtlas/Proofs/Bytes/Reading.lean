/-
OffsetAtlas.Proofs.Bytes.Reading — a reader in front of bytes that were written, or of any bytes.

Main statement: a word that was written with enough room is read back, and the reader then stands in
front of whatever followed it (`word_write`). All of it is stated for any cursor position and any
bytes behind, so that readings of several fields chain by rewriting.

Of bytes that nobody is known to have written, a run is taken if there are enough of them, and not a
byte is if there are too few (`bytes_of_le`, `bytes_of_lt`). A version is four runs: one that is cut
short is passed as far as its words go, and what is missing is counted from there
(`versionWords_of_lt`). A reading that succeeded says what the bytes are (`u32_of_ok`), and so does
a version, up to the halves that it drops (`version_of_ok`).
-/
import Mathlib.Algebra.Group.Int.Defs
import OffsetAtlas.Bytes.Reader

namespace OffsetAtlas.Reader

/-- A run as long as asked for is handed out and the rest is left. -/
theorem bytes_append (what : String) (bs rest : List UInt8) (position : Nat) :
    bytes bs.length what ⟨position, bs ++ rest⟩ = (.ok bs, ⟨position + bs.length, rest⟩) := by
  simp [bytes]

theorem word_append {w : Nat} {bs : List UInt8} (hw : bs.length = w) (what : String)
    (rest : List UInt8) (position : Nat) :
    word w what ⟨position, bs ++ rest⟩ = (.ok (Bytes.read bs), ⟨position + w, rest⟩) := by
  subst hw
  rw [word, Attempt.map_apply, bytes_append]

/-- A number that has room in its word is read back. -/
theorem word_write {w n : Nat} (h : n < Bytes.capacity w) (what : String) (rest : List UInt8)
    (position : Nat) :
    word w what ⟨position, Bytes.write w n ++ rest⟩ = (.ok n, ⟨position + w, rest⟩) := by
  rw [word_append (Bytes.length_write w n), Bytes.read_write h]

/-- The byte in front is read as it is. -/
theorem u8_cons (what : String) (b : UInt8) (rest : List UInt8) (position : Nat) :
    u8 what ⟨position, b :: rest⟩ = (.ok b, ⟨position + 1, rest⟩) := by
  have h : word 1 what ⟨position, [b] ++ rest⟩ = (.ok (Bytes.read [b]), ⟨position + 1, rest⟩) :=
    word_append List.length_singleton what rest position
  rw [List.singleton_append] at h
  rw [u8, Attempt.map_apply, h]
  simp [Bytes.read]

theorem u32_write {n : Nat} (h : n < UInt32.size) (what : String) (rest : List UInt8)
    (position : Nat) :
    u32 what ⟨position, Bytes.write 4 n ++ rest⟩ = (.ok (UInt32.ofNat n), ⟨position + 4, rest⟩) := by
  rw [u32, Attempt.map_apply, word_write h]

theorem u64_write {n : Nat} (h : n < UInt64.size) (what : String) (rest : List UInt8)
    (position : Nat) :
    u64 what ⟨position, Bytes.write 8 n ++ rest⟩ = (.ok (UInt64.ofNat n), ⟨position + 8, rest⟩) := by
  rw [u64, Attempt.map_apply, word_write h]

theorem i32_write {n : Nat} (h : n < UInt32.size) (what : String) (rest : List UInt8)
    (position : Nat) :
    i32 what ⟨position, Bytes.write 4 n ++ rest⟩ = (.ok (Int32.ofNat n), ⟨position + 4, rest⟩) := by
  rw [i32, Attempt.map_apply, word_write h]

/-- A count below the limit is no negative number. -/
theorem count_write {n : Nat} (h : n < countLimit) (what : String) (rest : List UInt8)
    (position : Nat) :
    count what ⟨position, Bytes.write 4 n ++ rest⟩ = (.ok n, ⟨position + 4, rest⟩) := by
  have hint : (Int32.ofNat n).toInt = n := Int32.toInt_ofNat_of_lt h
  have hnonneg : ¬ Int32.ofNat n < 0 := by
    rw [Int32.lt_iff_toInt_lt, hint]
    exact Int.not_lt.2 (Int.natCast_nonneg n)
  rw [count, Attempt.bind_apply, i32_write (Nat.lt_trans h (by decide))]
  simp only [if_neg hnonneg, hint, Int.toNat_natCast]
  rfl

/-- From the limit on the sign bit is set, so the number is refused as a negative one. -/
theorem count_write_negative {n : Nat} (hlimit : countLimit ≤ n) (hroom : n < UInt32.size)
    (what : String) (rest : List UInt8) (position : Nat) :
    count what ⟨position, Bytes.write 4 n ++ rest⟩
      = (.error (.malformedHeader (.negative what (n - 2 ^ 32))), ⟨position + 4, rest⟩) := by
  have hhalf : countLimit = 2 ^ 31 := rfl
  have hsize : UInt32.size = 2 ^ 32 := rfl
  have hint : (Int32.ofNat n).toInt = n - 2 ^ 32 := by
    rw [Int32.toInt_ofNat', Int.bmod_def, show Int32.size = 2 ^ 32 from rfl]
    omega
  have hnegative : Int32.ofNat n < 0 := by
    rw [Int32.lt_iff_toInt_lt, hint, Int32.toInt_zero]
    omega
  rw [count, Attempt.bind_of_ok (i32_write hroom _ _ _), if_pos hnegative, hint]
  rfl

/-- A version is read back from its four words. -/
theorem version_write (v : Version) (rest : List UInt8) (position : Nat) :
    version ⟨position, v.components.flatMap (fun c => Bytes.write 4 c.toNat) ++ rest⟩
      = (.ok v, ⟨position + 16, rest⟩) := by
  have hword : ∀ c : UInt16, c.toNat < UInt32.size := fun c => Nat.lt_trans c.toNat_lt (by decide)
  simp only [Version.components, List.flatMap_cons, List.flatMap_nil, List.append_nil,
    List.append_assoc]
  rw [version, versionWords]
  simp only [Attempt.bind_apply, u32_write (hword _), Attempt.pure_apply]
  simp [Version.ofWords, Nat.add_assoc]

/-! ## Bytes of unknown origin -/

variable {α : Type} {n : Nat} {r t : Reader} {what : String}

/-- The cursor behind the next `n` bytes. -/
def skip (r : Reader) (n : Nat) : Reader :=
  ⟨r.position + n, r.unread.drop n⟩

theorem skip_skip (r : Reader) (m n : Nat) : (r.skip m).skip n = r.skip (m + n) := by
  rw [skip, skip, skip, List.drop_drop, Nat.add_assoc]

theorem remaining_skip (r : Reader) (n : Nat) : (r.skip n).remaining = r.remaining - n :=
  List.length_drop

theorem bytes_of_le (h : n ≤ r.remaining) (what : String) :
    bytes n what r = (.ok (r.unread.take n), r.skip n) :=
  if_pos (List.length_take_of_le h)

theorem bytes_of_lt (h : r.remaining < n) (what : String) :
    bytes n what r = (.error (.truncated what n r.remaining), r) := by
  refine if_neg fun hlength => ?_
  have hshort : r.unread.length < n := h
  rw [List.length_take] at hlength
  omega

theorem run_of_le (h : n ≤ r.remaining) (f : List UInt8 → α) (what : String) :
    (f <$> bytes n what) r = (.ok (f (r.unread.take n)), r.skip n) := by
  rw [Attempt.map_apply, bytes_of_le h]

theorem run_of_lt (h : r.remaining < n) (f : List UInt8 → α) (what : String) :
    (f <$> bytes n what) r = (.error (.truncated what n r.remaining), r) := by
  rw [Attempt.map_apply, bytes_of_lt h]

theorem bytes_of_ok {bs : List UInt8} (h : bytes n what r = (.ok bs, t)) :
    bs = r.unread.take n ∧ bs.length = n ∧ t = ⟨r.position + n, r.unread.drop n⟩ := by
  simp only [bytes] at h
  split at h
  · next hlength =>
    cases h
    exact ⟨rfl, hlength, rfl⟩
  · cases h

/-- A number that was read has room in its word. -/
theorem word_of_ok {w n : Nat} (h : word w what r = (.ok n, t)) :
    n = Bytes.read (r.unread.take w) ∧ n < Bytes.capacity w
      ∧ t = ⟨r.position + w, r.unread.drop w⟩ := by
  obtain ⟨bs, hbytes, rfl⟩ := Attempt.map_eq_ok.1 h
  obtain ⟨rfl, hlength, ht⟩ := bytes_of_ok hbytes
  have hroom := Bytes.read_lt (r.unread.take w)
  rw [hlength] at hroom
  exact ⟨rfl, hroom, ht⟩

theorem u32_of_ok {w : UInt32} (h : u32 what r = (.ok w, t)) :
    w.toNat = Bytes.read (r.unread.take 4) ∧ t.unread = r.unread.drop 4 := by
  obtain ⟨n, hword, rfl⟩ := Attempt.map_eq_ok.1 h
  obtain ⟨rfl, hroom, rfl⟩ := word_of_ok hword
  exact ⟨UInt32.toNat_ofNat_of_lt' hroom, rfl⟩

/-! ## Words of a version -/

theorem u32_eq (what : String) :
    u32 what = (fun bs => UInt32.ofNat (Bytes.read bs)) <$> bytes 4 what :=
  (comp_map _ _ _).symm

/-- One of the words in front of the cursor. -/
def wordAt (r : Reader) (i : Nat) : UInt32 :=
  UInt32.ofNat (Bytes.read ((r.unread.drop (4 * i)).take 4))

theorem u32_skip {i : Nat} (h : 4 * i + 4 ≤ r.remaining) (what : String) :
    u32 what (r.skip (4 * i)) = (.ok (r.wordAt i), r.skip (4 * (i + 1))) := by
  have hroom : 4 ≤ (r.skip (4 * i)).remaining := by
    rw [remaining_skip]
    omega
  rw [u32_eq, run_of_le hroom, skip_skip]
  rfl

theorem toNat_wordAt {i : Nat} (h : 4 * i + 4 ≤ r.remaining) :
    (r.wordAt i).toNat = Bytes.read ((r.unread.drop (4 * i)).take 4) := by
  have hlength : ((r.unread.drop (4 * i)).take 4).length = 4 := by
    have hunread : 4 * i + 4 ≤ r.unread.length := h
    rw [List.length_take, List.length_drop]
    omega
  have hroom := Bytes.read_lt ((r.unread.drop (4 * i)).take 4)
  rw [hlength] at hroom
  exact UInt32.toNat_ofNat_of_lt' hroom

theorem versionWords_of_le (h : 16 ≤ r.remaining) :
    versionWords r = (.ok (.ofFn fun i : Fin 4 => r.wordAt i), r.skip 16) := by
  have hword : ∀ i < 4, u32 "game version" (r.skip (4 * i))
      = (.ok (r.wordAt i), r.skip (4 * (i + 1))) := fun i hi => u32_skip (by omega) _
  have hfirst : u32 "game version" r = (.ok (r.wordAt 0), r.skip (4 * 1)) := hword 0 (by decide)
  rw [versionWords, Attempt.bind_of_ok hfirst, Attempt.bind_of_ok (hword 1 (by decide)),
    Attempt.bind_of_ok (hword 2 (by decide)), Attempt.bind_of_ok (hword 3 (by decide))]
  rfl

/-- A version that is cut short is read as far as its words go. -/
theorem versionWords_of_lt (h : r.remaining < 16) :
    versionWords r = (.error (.truncated "game version" 4 (r.remaining % 4)),
      r.skip (4 * (r.remaining / 4))) := by
  obtain ⟨k, hk⟩ : ∃ k, r.remaining / 4 = k := ⟨_, rfl⟩
  have hword : ∀ i < k, u32 "game version" (r.skip (4 * i))
      = (.ok (r.wordAt i), r.skip (4 * (i + 1))) := fun i hi => u32_skip (by omega) _
  have hshort : u32 "game version" (r.skip (4 * k))
      = (.error (.truncated "game version" 4 (r.remaining % 4)), r.skip (4 * k)) := by
    have hleft : (r.skip (4 * k)).remaining = r.remaining % 4 := by
      rw [remaining_skip]
      omega
    rw [u32_eq, run_of_lt (by omega), hleft]
  have hfirst : r = r.skip (4 * 0) := rfl
  have hcases : k = 0 ∨ k = 1 ∨ k = 2 ∨ k = 3 := by omega
  rw [hk, versionWords]
  rcases hcases with rfl | rfl | rfl | rfl
  · exact Attempt.bind_of_error hshort _
  · rw [hfirst, Attempt.bind_of_ok (hword 0 (by decide))]
    exact Attempt.bind_of_error hshort _
  · rw [hfirst, Attempt.bind_of_ok (hword 0 (by decide)), Attempt.bind_of_ok (hword 1 (by decide))]
    exact Attempt.bind_of_error hshort _
  · rw [hfirst, Attempt.bind_of_ok (hword 0 (by decide)), Attempt.bind_of_ok (hword 1 (by decide)),
      Attempt.bind_of_ok (hword 2 (by decide))]
    exact Attempt.bind_of_error hshort _

/-- The four words in front of some bytes, as they are stored. -/
def storedWords (bs : List UInt8) : List Nat :=
  (List.range 4).map fun i => Bytes.read ((bs.drop (4 * i)).take 4)

/-- A version that was read is the low half of each word. -/
theorem version_of_ok {v : Version} (h : version r = (.ok v, t)) :
    v.components.map UInt16.toNat = (storedWords r.unread).map (· % UInt16.size) := by
  obtain ⟨words, _, hwords, hv⟩ := Attempt.bind_eq_ok.1 h
  have hroom : 16 ≤ r.remaining := by
    apply Nat.le_of_not_lt
    intro hshort
    cases hwords.symm.trans (versionWords_of_lt hshort)
  cases hwords.symm.trans (versionWords_of_le hroom)
  cases hv
  have hword : ∀ i < 4, (r.wordAt i).toNat = Bytes.read ((r.unread.drop (4 * i)).take 4) :=
    fun i hi => toNat_wordAt (by omega)
  simp [Version.components, Version.ofWords, storedWords, List.range_succ, hword, UInt16.size]

end OffsetAtlas.Reader
