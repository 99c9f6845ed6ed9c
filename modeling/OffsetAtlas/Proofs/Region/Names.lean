/-
OffsetAtlas.Proofs.Region.Names — the shape of region names.

A region name consists of upper-case letters, digits and underscores and has at most
`longestRegionName` of them, so it is a plain name in any directory whose path is short enough, and
so is the name of its lock (`fitsBelow_regionName`, `fitsBelow_lockName`). A lock's name holds a dot
and is therefore no region name, and the tag can be read back from the end of the name
(`sourceTag_of_regionName_eq`). None of this depends on which digest the tag is cut from, so it is
said first of names by any digest of 64 bytes (`regionNameBy`).
-/
import Mathlib.Algebra.Group.Nat.Defs
import OffsetAtlas.Proofs.Disk.Directory
import OffsetAtlas.Proofs.Text.Numeral
import OffsetAtlas.Region

namespace OffsetAtlas

open Text

/-! ## Numerals -/

namespace Text.Numeral

theorem length_decimal_le (n : UInt16) : (decimal n.toNat).toList.length ≤ 5 := by
  rw [toList_decimal, Nat.length_toDigits_le_iff (by decide) (by decide)]
  exact Nat.lt_of_lt_of_le n.toNat_lt (by decide)

theorem length_hexBytes (bs : List UInt8) : (hexBytes bs).toList.length = 2 * bs.length := by
  rw [hexBytes, String.toList_ofList]
  induction bs with
  | nil => rfl
  | cons b bs ih =>
    simp only [List.flatMap_cons, List.length_append, List.length_cons, List.length_nil] at ih ⊢
    omega

theorem mem_hexBytes {bs : List UInt8} {c : Char} (h : c ∈ (hexBytes bs).toList) :
    ∃ d < 16, c = digit d := by
  rw [hexBytes, String.toList_ofList, List.mem_flatMap] at h
  obtain ⟨b, -, hc⟩ := h
  have hb := b.toNat_lt
  rcases List.mem_cons.1 hc with rfl | hc
  · exact ⟨_, by omega, rfl⟩
  · obtain rfl := List.mem_singleton.1 hc
    exact ⟨_, by omega, rfl⟩

end Text.Numeral

/-! ## Characters -/

/-- The characters of region names. -/
def isNameChar (c : Char) : Bool :=
  c.isDigit || c.isUpper || c == '_'

theorem isNameChar_digit {d : Nat} (h : d < 16) : isNameChar (Numeral.digit d) = true := by
  have key : ∀ d : Fin 16, isNameChar (Numeral.digit d.val) = true := by decide
  exact key ⟨d, h⟩

theorem utf8Size_of_isNameChar {c : Char} (h : isNameChar c = true) : c.utf8Size = 1 := by
  rw [Char.utf8Size_eq_one_iff]
  rw [isNameChar, Bool.or_eq_true, Bool.or_eq_true, beq_iff_eq] at h
  rcases h with (h | h) | rfl
  · obtain ⟨-, hdigit⟩ := Bool.and_eq_true_iff.1 h
    exact UInt32.le_trans (of_decide_eq_true hdigit) (by decide)
  · have hupper : 'A'.val ≤ c.val ∧ c.val ≤ 'Z'.val := of_decide_eq_true h
    exact UInt32.le_trans hupper.2 (by decide)
  · decide

/-- A text of such characters takes one byte for each. -/
theorem utf8ByteSize_of_isNameChar {s : String} (h : ∀ c ∈ s.toList, isNameChar c = true) :
    s.utf8ByteSize = s.toList.length := by
  have key : ∀ cs : List Char, (∀ c ∈ cs, isNameChar c = true) →
      (String.ofList cs).utf8ByteSize = cs.length := by
    intro cs
    induction cs with
    | nil => intro _; rfl
    | cons c cs ih =>
      intro hcs
      have hc := utf8Size_of_isNameChar (hcs c List.mem_cons_self)
      have hrest := ih fun c' h' => hcs c' (List.mem_cons_of_mem c h')
      rw [← List.singleton_append, String.ofList_append, String.utf8ByteSize_append, hrest,
        ← String.singleton_eq_ofList, String.utf8ByteSize_singleton, hc]
      simp [Nat.add_comm]
  have := key s.toList h
  rwa [String.ofList_toList] at this

/-! ## Region names -/

/-- No region name has more characters. -/
def longestRegionName : Nat := 61

/-- What stands behind a region's name in the name of its lock. -/
def lockEnding : String := ".lock"

theorem toList_join (sep : String) (c : Char) (hsep : sep.toList = [c]) (v : Version) :
    (v.join sep).toList
      = (Numeral.decimal v.major.toNat).toList ++ c :: (Numeral.decimal v.minor.toNat).toList
        ++ c :: (Numeral.decimal v.patch.toNat).toList
        ++ c :: (Numeral.decimal v.build.toNat).toList := by
  simp [Version.join, Version.components, String.intercalate_cons_cons, hsep]

theorem isNameChar_decimal {n : Nat} {c : Char} (h : c ∈ (Numeral.decimal n).toList) :
    isNameChar c = true := by
  rw [isNameChar, Numeral.isDigit_of_mem_decimal h]
  rfl

section

variable (digest : List UInt8 → Vector UInt8 64)

/-- The digits by which names tell sources apart, for any digest of 64 bytes. -/
def tagBy (source : List UInt8) : String :=
  String.ofList ((Numeral.hexBytes (digest source).toList).toList.take sourceTagLength)

/-- The name of a region, for any digest of 64 bytes. -/
def regionNameBy (v : Version) (source : List UInt8) : String :=
  regionNameStart ++ "_" ++ v.join "_" ++ "_" ++ tagBy digest source

theorem toList_regionNameBy (v : Version) (source : List UInt8) :
    (regionNameBy digest v source).toList
      = regionNameStart.toList ++ '_' :: (v.join "_").toList
        ++ '_' :: (tagBy digest source).toList := by
  simp [regionNameBy]

/-- A source's tag has its full length, since digests are longer. -/
theorem length_tagBy (source : List UInt8) :
    (tagBy digest source).toList.length = sourceTagLength := by
  rw [tagBy, String.toList_ofList, List.length_take, Numeral.length_hexBytes, Vector.length_toList]
  rfl

variable {digest} {v w : Version} {a b source : List UInt8}

theorem isNameChar_tagBy {c : Char} (h : c ∈ (tagBy digest source).toList) :
    isNameChar c = true := by
  rw [tagBy, String.toList_ofList] at h
  obtain ⟨d, hd, rfl⟩ := Numeral.mem_hexBytes (List.mem_of_mem_take h)
  exact isNameChar_digit hd

theorem isNameChar_regionNameBy {c : Char} (h : c ∈ (regionNameBy digest v source).toList) :
    isNameChar c = true := by
  have hstart : regionNameStart.toList.all isNameChar = true := by decide
  rw [toList_regionNameBy, toList_join "_" '_' rfl] at h
  simp only [List.mem_append, List.mem_cons] at h
  rcases h with (h | rfl | ((h | rfl | h) | rfl | h) | rfl | h) | rfl | h
  · exact List.all_eq_true.1 hstart c h
  · rfl
  · exact isNameChar_decimal h
  · rfl
  · exact isNameChar_decimal h
  · rfl
  · exact isNameChar_decimal h
  · rfl
  · exact isNameChar_decimal h
  · rfl
  · exact isNameChar_tagBy h

/-- The tag is what a region name ends in. -/
theorem tagBy_of_regionNameBy_eq (h : regionNameBy digest v a = regionNameBy digest w b) :
    tagBy digest a = tagBy digest b := by
  have h := congrArg String.toList h
  rw [toList_regionNameBy, toList_regionNameBy] at h
  have htags := List.append_inj_right' h (by simp [length_tagBy])
  exact String.toList_inj.1 (List.cons.inj htags).2

/-- No lock has the name of a region. -/
theorem lockName_ne_regionNameBy (name : String) :
    lockName name ≠ regionNameBy digest v source := by
  intro h
  have hdot : '.' ∈ (regionNameBy digest v source).toList := by
    rw [← h]
    simp [lockName]
  exact absurd (isNameChar_regionNameBy hdot) (by decide)

end

/-- The digest that is used, with its length. -/
def Digest.ofSource (source : List UInt8) : Vector UInt8 64 :=
  ⟨(sha512 source).toArray, length_sha512 source⟩

theorem sourceTag_eq (source : List UInt8) : sourceTag source = tagBy Digest.ofSource source := rfl

theorem regionName_eq (v : Version) (source : List UInt8) :
    regionName v source = regionNameBy Digest.ofSource v source := rfl

theorem toList_regionName (v : Version) (source : List UInt8) :
    (regionName v source).toList
      = regionNameStart.toList ++ '_' :: (v.join "_").toList
        ++ '_' :: (sourceTag source).toList :=
  toList_regionNameBy Digest.ofSource v source

theorem length_sourceTag (source : List UInt8) :
    (sourceTag source).toList.length = sourceTagLength :=
  length_tagBy Digest.ofSource source

theorem isNameChar_regionName {v : Version} {source : List UInt8} {c : Char}
    (h : c ∈ (regionName v source).toList) : isNameChar c = true := by
  rw [regionName_eq] at h
  exact isNameChar_regionNameBy h

theorem utf8ByteSize_regionName_le (v : Version) (source : List UInt8) :
    (regionName v source).utf8ByteSize ≤ longestRegionName := by
  rw [utf8ByteSize_of_isNameChar fun c hc => isNameChar_regionName hc, toList_regionName,
    toList_join "_" '_' rfl]
  have hstart : regionNameStart.toList.length = 20 := by decide
  have htag := length_sourceTag source
  have h1 := Numeral.length_decimal_le v.major
  have h2 := Numeral.length_decimal_le v.minor
  have h3 := Numeral.length_decimal_le v.patch
  have h4 := Numeral.length_decimal_le v.build
  simp only [List.length_append, List.length_cons, sourceTagLength, longestRegionName] at *
  omega

theorem sourceTag_of_regionName_eq {v w : Version} {a b : List UInt8}
    (h : regionName v a = regionName w b) : sourceTag a = sourceTag b := by
  rw [regionName_eq, regionName_eq] at h
  rw [sourceTag_eq, sourceTag_eq]
  exact tagBy_of_regionNameBy_eq h

theorem lockName_ne_regionName (name : String) (v : Version) (source : List UInt8) :
    lockName name ≠ regionName v source := by
  rw [regionName_eq]
  exact lockName_ne_regionNameBy name

/-! ## Places below a directory -/

/-- A path short enough for the locks of all regions below it. -/
def Roomy (dir : Path) : Prop :=
  dir.text.utf8ByteSize + longestRegionName + lockEnding.utf8ByteSize < longestPath

instance (dir : Path) : Decidable (Roomy dir) := by
  unfold Roomy
  infer_instance

/-- A name with a character that another lacks. -/
theorem ne_of_mem {s t : String} {c : Char} (hs : c ∈ s.toList) (ht : c ∉ t.toList) : s ≠ t := by
  rintro rfl
  exact ht hs

theorem fitsBelow_regionName {dir : Path} (h : Roomy dir) (v : Version) (source : List UInt8) :
    FitsBelow dir (regionName v source) := by
  have hsize := utf8ByteSize_regionName_le v source
  have hchar : ∀ {c : Char}, isNameChar c = false → c ∉ (regionName v source).toList :=
    fun hc hm => by simp [isNameChar_regionName hm] at hc
  have hU : '_' ∈ (regionName v source).toList := by
    rw [toList_regionName]
    simp
  unfold Roomy at h
  exact {
    nonempty := ne_of_mem hU (by decide)
    noDot := ne_of_mem hU (by decide)
    noDots := ne_of_mem hU (by decide)
    noSlash := hchar (by decide)
    noNul := hchar (by decide)
    short := Nat.le_trans hsize (by decide)
    walkable := by omega }

theorem fitsBelow_lockName {dir : Path} (h : Roomy dir) (v : Version) (source : List UInt8) :
    FitsBelow dir (lockName (regionName v source)) := by
  have hsize := utf8ByteSize_regionName_le v source
  have hname := fitsBelow_regionName h v source
  have htext : lockName (regionName v source) = regionName v source ++ lockEnding := rfl
  have hlock : lockEnding.utf8ByteSize = 5 := rfl
  have hbytes : (lockName (regionName v source)).utf8ByteSize ≤ 66 := by
    rw [htext, String.utf8ByteSize_append, hlock]
    exact Nat.add_le_add_right hsize 5
  have hk : 'k' ∈ (lockName (regionName v source)).toList := by
    rw [htext]
    simp [lockEnding]
  unfold Roomy at h
  rw [hlock] at h
  have hnot : ∀ {c : Char}, c ∉ (regionName v source).toList → c ∉ lockEnding.toList →
      c ∉ (lockName (regionName v source)).toList := by
    intro c hc hending
    rw [htext, String.toList_append, List.mem_append]
    exact not_or.2 ⟨hc, hending⟩
  exact {
    nonempty := ne_of_mem hk (by decide)
    noDot := ne_of_mem hk (by decide)
    noDots := ne_of_mem hk (by decide)
    noSlash := hnot hname.noSlash (by decide)
    noNul := hnot hname.noNul (by decide)
    short := Nat.le_trans hbytes (by decide)
    walkable := by
      simp only [longestRegionName] at h
      omega }

end OffsetAtlas
