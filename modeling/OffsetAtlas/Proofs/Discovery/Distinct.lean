/-
OffsetAtlas.Proofs.Discovery.Distinct — a name belongs to one version.

Region names and file names put the components of a version in a row, with one separator between
them. A component consists of digits and never holds the separator, so the name can be split again,
and the parts are the components (`split_join`). What stands around the row is split off first: a
region name starts with the same letters always and ends in a tag without a separator, and a file
name has one dot, in front of its extension.

A file that is looked for below a directory has its own name there, so what is found for two
versions is apart (`Disk.Apart`): the paths are different, and so are the places that they lead to
on any disk.
-/
import OffsetAtlas.Discovery
import OffsetAtlas.Proofs.Disk.Operations
import OffsetAtlas.Proofs.Region.Names

namespace OffsetAtlas

open Text

variable {v w : Version} {a b : List UInt8}

/-! ## Versions in a row -/

namespace Version

/-- The components as they are written. -/
def numerals (v : Version) : List (List Char) :=
  v.components.map fun c => (Numeral.decimal c.toNat).toList

theorem numerals_injective (h : v.numerals = w.numerals) : v = w := by
  have hcomponent : ∀ {m n : UInt16},
      (Numeral.decimal m.toNat).toList = (Numeral.decimal n.toNat).toList → m = n := fun hd =>
    UInt16.toNat_inj.1 (Numeral.decimal_injective (String.toList_inj.1 hd))
  simp only [numerals, components, List.map_cons, List.map_nil, List.cons.injEq, and_true] at h
  obtain ⟨hmajor, hminor, hpatch, hbuild⟩ := h
  cases v
  cases w
  simp only [mk.injEq]
  exact ⟨hcomponent hmajor, hcomponent hminor, hcomponent hpatch, hcomponent hbuild⟩

/-- A version is split into its components by a separator that is no digit. -/
theorem split_join (sep : String) (c : Char) (hsep : sep.toList = [c]) (hc : c.isDigit = false)
    (v : Version) : split c (v.join sep).toList = v.numerals := by
  have hpart : ∀ n, split c (Numeral.decimal n).toList = [(Numeral.decimal n).toList] := by
    intro n
    refine split_of_not_mem fun hmem => ?_
    rw [Numeral.isDigit_of_mem_decimal hmem] at hc
    cases hc
  rw [toList_join sep c hsep]
  simp only [split_append_cons, hpart]
  rfl

theorem mem_join {sep : String} {c d : Char} (hsep : sep.toList = [c])
    (h : d ∈ (v.join sep).toList) : d = c ∨ d.isDigit = true := by
  rw [toList_join sep c hsep] at h
  simp only [List.mem_append, List.mem_cons] at h
  rcases h with ((h | h | h) | h | h) | h | h
  · exact .inr (Numeral.isDigit_of_mem_decimal h)
  · exact .inl h
  · exact .inr (Numeral.isDigit_of_mem_decimal h)
  · exact .inl h
  · exact .inr (Numeral.isDigit_of_mem_decimal h)
  · exact .inl h
  · exact .inr (Numeral.isDigit_of_mem_decimal h)

end Version

/-! ## Region names -/

theorem Text.Numeral.digit_ne_underscore {d : Nat} (h : d < 16) : digit d ≠ '_' := by
  have key : ∀ d : Fin 16, digit d.val ≠ '_' := by decide
  exact key ⟨d, h⟩

theorem split_regionNameBy (digest : List UInt8 → Vector UInt8 64) (v : Version)
    (source : List UInt8) :
    split '_' (regionNameBy digest v source).toList
      = split '_' regionNameStart.toList ++ (v.numerals ++ [(tagBy digest source).toList]) := by
  have htag : '_' ∉ (tagBy digest source).toList := by
    intro hmem
    rw [tagBy, String.toList_ofList] at hmem
    obtain ⟨d, hd, hdigit⟩ := Numeral.mem_hexBytes (List.mem_of_mem_take hmem)
    exact Numeral.digit_ne_underscore hd hdigit.symm
  rw [toList_regionNameBy, List.append_assoc, List.cons_append, split_append_cons, split_append_cons,
    Version.split_join "_" '_' rfl (by decide), split_of_not_mem htag]

/-- A region name tells the version and the tag. -/
theorem regionNameBy_inj {digest : List UInt8 → Vector UInt8 64} :
    regionNameBy digest v a = regionNameBy digest w b ↔ v = w ∧ tagBy digest a = tagBy digest b := by
  constructor
  · intro h
    have hparts := congrArg (fun name => split '_' name.toList) h
    simp only [split_regionNameBy] at hparts
    have hrow := List.append_cancel_left hparts
    obtain ⟨hnumerals, htag⟩ := List.append_inj' hrow (by simp)
    exact ⟨Version.numerals_injective hnumerals, String.toList_inj.1 (List.cons.inj htag).1⟩
  · rintro ⟨rfl, htag⟩
    rw [regionNameBy, htag, regionNameBy]

/-! ## File names -/

section

variable {root root' : FileRoot} {extension extension' : FileExtension}

theorem FileRoot.not_mem_text (root : FileRoot) :
    '.' ∉ root.text.toList ∧ '-' ∉ root.text.toList := by
  cases root <;> decide

theorem FileRoot.text_injective (h : root.text.toList = root'.text.toList) : root = root' := by
  cases root <;> cases root' <;> first | rfl | exact absurd h (by decide)

theorem FileExtension.text_injective (h : extension.text.toList = extension'.text.toList) :
    extension = extension' := by
  cases extension <;> cases extension' <;> first | rfl | exact absurd h (by decide)

theorem toList_databaseFileName (root : String) (v : Version) (extension : String) :
    (databaseFileName root v extension).toList
      = root.toList ++ '-' :: (v.join "-").toList ++ '.' :: extension.toList := by
  simp [databaseFileName]

/-- The only dot of a file name is the one in front of the extension. -/
theorem split_databaseFileName (root : FileRoot) (v : Version) (extension : FileExtension) :
    split '.' (databaseFileName root.text v extension.text).toList
      = [root.text.toList ++ '-' :: (v.join "-").toList, extension.text.toList] := by
  have hfront : '.' ∉ root.text.toList ++ '-' :: (v.join "-").toList := by
    intro hmem
    rcases List.mem_append.1 hmem with hmem | hmem
    · exact root.not_mem_text.1 hmem
    · rcases List.mem_cons.1 hmem with hdash | hmem
      · exact absurd hdash (by decide)
      · rcases Version.mem_join rfl hmem with hdash | hdigit
        · exact absurd hdash (by decide)
        · exact absurd hdigit (by decide)
  have hextension : '.' ∉ extension.text.toList := by cases extension <;> decide
  rw [toList_databaseFileName, split_append_cons, split_of_not_mem hfront,
    split_of_not_mem hextension]
  rfl

/-- A file name tells the root, the version and the extension. -/
theorem databaseFileName_injective
    (h : databaseFileName root.text v extension.text
      = databaseFileName root'.text w extension'.text) :
    root = root' ∧ v = w ∧ extension = extension' := by
  have hparts := congrArg (fun name => split '.' name.toList) h
  simp only [split_databaseFileName, List.cons.injEq, and_true] at hparts
  obtain ⟨hfront, hextension⟩ := hparts
  have hrow := congrArg (split '-') hfront
  simp only [split_append_cons, split_of_not_mem (FileRoot.not_mem_text _).2,
    Version.split_join "-" '-' rfl (by decide), List.singleton_append, List.cons.injEq] at hrow
  exact ⟨FileRoot.text_injective hrow.1, Version.numerals_injective hrow.2,
    FileExtension.text_injective hextension⟩

end

/-! ## Files below a directory -/

theorem utf8ByteSize_decimal_le (n : UInt16) : (Numeral.decimal n.toNat).utf8ByteSize ≤ 5 := by
  rw [utf8ByteSize_of_isNameChar fun c hc => isNameChar_decimal hc]
  exact Numeral.length_decimal_le n

theorem utf8ByteSize_databaseFileName_le (root : FileRoot) (v : Version)
    (extension : FileExtension) :
    (databaseFileName root.text v extension.text).utf8ByteSize ≤ 38 := by
  have hjoin : v.join "-" = Numeral.decimal v.major.toNat ++ "-" ++ Numeral.decimal v.minor.toNat
      ++ "-" ++ Numeral.decimal v.patch.toNat ++ "-" ++ Numeral.decimal v.build.toNat := by
    rw [← String.toList_inj, toList_join "-" '-' rfl]
    simp
  have hroot : root.text.utf8ByteSize ≤ 10 := by cases root <;> decide
  have hextension : extension.text.utf8ByteSize ≤ 3 := by cases extension <;> decide
  have hdash : ("-" : String).utf8ByteSize = 1 := rfl
  have hdot : ("." : String).utf8ByteSize = 1 := rfl
  have h1 := utf8ByteSize_decimal_le v.major
  have h2 := utf8ByteSize_decimal_le v.minor
  have h3 := utf8ByteSize_decimal_le v.patch
  have h4 := utf8ByteSize_decimal_le v.build
  simp only [databaseFileName, hjoin, String.utf8ByteSize_append, hdash, hdot]
  omega

theorem mem_databaseFileName {root : FileRoot} {extension : FileExtension} {c : Char}
    (h : c ∈ (databaseFileName root.text v extension.text).toList) :
    c ∈ root.text.toList ∨ c = '-' ∨ c.isDigit = true ∨ c = '.' ∨ c ∈ extension.text.toList := by
  rw [toList_databaseFileName, List.mem_append, List.mem_append, List.mem_cons, List.mem_cons] at h
  rcases h with (h | h | h) | h | h
  · exact .inl h
  · exact .inr (.inl h)
  · rcases Version.mem_join rfl h with h | h
    · exact .inr (.inl h)
    · exact .inr (.inr (.inl h))
  · exact .inr (.inr (.inr (.inl h)))
  · exact .inr (.inr (.inr (.inr h)))

/-- A file name is a plain name. -/
theorem plain_databaseFileName (root : FileRoot) (v : Version) (extension : FileExtension) :
    Plain (databaseFileName root.text v extension.text) := by
  have hsize := utf8ByteSize_databaseFileName_le root v extension
  have hdash : '-' ∈ (databaseFileName root.text v extension.text).toList := by
    rw [toList_databaseFileName]
    simp
  have hnot : ∀ {c : Char}, c ∉ root.text.toList → c ≠ '-' → c.isDigit = false → c ≠ '.' →
      c ∉ extension.text.toList → c ∉ (databaseFileName root.text v extension.text).toList := by
    intro c hroot hcdash hdigit hdot hextension hmem
    rcases mem_databaseFileName hmem with h | h | h | h | h
    · exact hroot h
    · exact hcdash h
    · rw [hdigit] at h
      cases h
    · exact hdot h
    · exact hextension h
  exact {
    nonempty := ne_of_mem hdash (by decide)
    noDot := ne_of_mem hdash (by decide)
    noDots := ne_of_mem hdash (by decide)
    noSlash := hnot (by cases root <;> decide) (by decide) (by decide) (by decide)
      (by cases extension <;> decide)
    noNul := hnot (by cases root <;> decide) (by decide) (by decide) (by decide)
      (by cases extension <;> decide)
    short := Nat.le_trans hsize (by decide) }

/-- Below the empty path a name is a path by itself. -/
theorem Path.join_of_empty {dir : Path} {name : String} (hname : Plain name)
    (hdir : dir.text = "") : dir.join name = ⟨name⟩ := by
  rw [Path.join, if_neg hname.not_startsWith, hdir]
  simp

/-- A directory's path tells the names below it apart. -/
theorem Path.join_injective {dir : Path} {name name' : String} (hname : Plain name)
    (hname' : Plain name') (h : dir.join name = dir.join name') : name = name' := by
  simp only [Path.join, if_neg hname.not_startsWith, if_neg hname'.not_startsWith] at h
  split at h
  · exact (String.append_right_inj _).1 (Path.mk.inj h)
  · exact (String.append_right_inj _).1 (Path.mk.inj h)

namespace Disk

variable {d : Disk} {dir : Path} {name : String} {place : Place} {node : Node}

theorem walk_of_find {p : Path} (h : d.find p = .ok (place, node)) :
    d.walk (d.origin p) (steps p) = .ok place := by
  unfold find resolve at h
  split at h
  · cases h
  · next q hq =>
    split at hq
    · cases hq
    · split at h
      · cases h
      · cases h
        exact hq

/-- A name is the last step of its path below a directory, also below the empty path. -/
theorem exists_steps_join (hname : Plain name) (dir : Path) :
    ∃ before, steps (dir.join name) = before ++ [name] := by
  by_cases hdir : dir.text = ""
  · rw [Path.join_of_empty hname hdir, steps_name hname]
    exact ⟨[], rfl⟩
  · obtain ⟨before, hsteps, -⟩ := steps_join hname hdir
    exact ⟨before, hsteps⟩

/-- A path to a name below a directory leads to a place with that name. -/
theorem getLast?_of_find_join (hname : Plain name)
    (h : d.find (dir.join name) = .ok (place, node)) :
    place.getLast? = some name := by
  obtain ⟨before, hsteps⟩ := exists_steps_join hname dir
  have hwalk : d.walk (d.origin (dir.join name)) (before ++ [name]) = .ok place := by
    rw [← hsteps]
    exact walk_of_find h
  rw [walk_append] at hwalk
  cases hbefore : d.walk (d.origin (dir.join name)) before with
  | error e =>
    rw [hbefore] at hwalk
    cases hwalk
  | ok q =>
    rw [hbefore] at hwalk
    have hlast : d.walk q [name] = .ok place := hwalk
    rw [walk_plain (node?_of_walk_cons hlast) hname] at hlast
    cases hlast
    exact List.getLast?_concat

/-- Paths that never name the same file: they are different, they lead to different places, and
where no two places hold one file they name different files. -/
structure Apart (p q : Path) : Prop where
  path : p ≠ q
  place : ∀ (d : Disk) {a b m n}, d.find p = .ok (a, m) → d.find q = .ok (b, n) → a ≠ b
  file : ∀ (d : Disk), d.Sane → ∀ {f g}, d.file? p = some f → d.file? q = some g → f.id ≠ g.id

theorem find_of_file? {p : Path} {f : File} (h : d.file? p = some f) :
    ∃ place, d.find p = .ok (place, .file f) := by
  unfold file? at h
  split at h
  · next place g hfind =>
    cases h
    exact ⟨place, hfind⟩
  · cases h

/-- Different names below one directory are apart. -/
theorem apart_join {name' : String} (hname : Plain name) (hname' : Plain name')
    (hne : name ≠ name') (dir : Path) : Apart (dir.join name) (dir.join name') := by
  have hplace : ∀ (d : Disk) {a b m n}, d.find (dir.join name) = .ok (a, m) →
      d.find (dir.join name') = .ok (b, n) → a ≠ b := by
    rintro d a b m n ha hb rfl
    exact hne (Option.some.inj
      ((getLast?_of_find_join hname ha).symm.trans (getLast?_of_find_join hname' hb)))
  refine ⟨fun h => hne (Path.join_injective hname hname' h), hplace, ?file⟩
  case file =>
    intro d hd f g hf hg hid
    obtain ⟨p, hp⟩ := find_of_file? hf
    obtain ⟨q, hq⟩ := find_of_file? hg
    exact hplace d hp hq (hd.alone (node?_of_find hp) (node?_of_find hq) hid)

end Disk

/-! ## What is found -/

namespace Source

variable {loader loader' : Loader} {dir : Path} {source source' : Source} {h h' g g' : Host}

/-- What is found is one of the files that were looked for. -/
theorem path_of_locateAmong {cs : List Candidate} {tried : List Path}
    (hfound : locateAmong loader dir v cs tried h = (.ok source, g)) :
    ∃ c ∈ cs, source.path = c.path dir v := by
  induction cs generalizing tried h with
  | nil => cases hfound
  | cons c cs ih =>
    rw [locateAmong, Host.note_bind, Attempt.bind_apply, Host.ask] at hfound
    simp only at hfound
    split at hfound
    · rw [Host.note_bind] at hfound
      cases hfound
      exact ⟨c, List.mem_cons_self, rfl⟩
    · obtain ⟨c', hc', hpath⟩ := ih hfound
      exact ⟨c', List.mem_cons_of_mem c hc', hpath⟩

/-- The first file that is looked for is found if it is there. -/
theorem locate_of_isFile {c : Candidate} {cs : List Candidate} (hcs : candidates loader = c :: cs)
    (hfile : h.disk.isFile (c.path dir v) = true) :
    ∃ g, locate loader dir v h = (.ok ⟨c.path dir v, loader, c.kind loader⟩, g) := by
  have hfile' : (h.noted (.debug ("Probing " ++ (c.path dir v).text))).disk.isFile (c.path dir v)
      = true := hfile
  rw [locate, hcs, locateAmong, Host.note_bind, Attempt.bind_apply, Host.ask, hfile']
  simp only [if_true]
  rw [Host.note_bind]
  exact ⟨_, rfl⟩

/-- What is found for two versions is apart, whoever looks, and whatever is there. -/
theorem apart_of_locate (hne : v ≠ w) (hv : locate loader dir v h = (.ok source, g))
    (hw : locate loader' dir w h' = (.ok source', g')) : Disk.Apart source.path source'.path := by
  obtain ⟨c, -, hc⟩ := path_of_locateAmong hv
  obtain ⟨c', -, hc'⟩ := path_of_locateAmong hw
  rw [hc, hc']
  refine Disk.apart_join (plain_databaseFileName _ _ _) (plain_databaseFileName _ _ _) ?_ dir
  exact fun hname => hne (databaseFileName_injective hname).2.1

end Source

/-- **A name belongs to one version.** Whatever digest of 64 bytes is taken, region names are equal
exactly if the versions are and the tags, the first sixteen digits of the digests, and none is the
name of a lock; the digest that is taken is such a one. File names are equal only for equal roots,
versions and extensions. So nobody who looks in a directory for another version is led to the same
file. -/
theorem names_separate (digest : List UInt8 → Vector UInt8 64) :
    (∀ v w a b, regionNameBy digest v a = regionNameBy digest w b
        ↔ v = w ∧ tagBy digest a = tagBy digest b)
      ∧ (∀ v w a b, lockName (regionNameBy digest v a) ≠ regionNameBy digest w b)
      ∧ regionName = regionNameBy Digest.ofSource
      ∧ (∀ (root root' : FileRoot) (extension extension' : FileExtension) (v w : Version),
        databaseFileName root.text v extension.text = databaseFileName root'.text w extension'.text →
          root = root' ∧ v = w ∧ extension = extension')
      ∧ ∀ dir v w, v ≠ w → ∀ loader loader' h h' source source' g g',
        Source.locate loader dir v h = (.ok source, g) →
          Source.locate loader' dir w h' = (.ok source', g') →
            Disk.Apart source.path source'.path := by
  refine ⟨fun v w a b => regionNameBy_inj, fun v w a b => lockName_ne_regionNameBy _, rfl,
    fun _ _ _ _ v w h => databaseFileName_injective h, ?found⟩
  case found =>
    intro dir v w hne loader loader' h h' source source' g g' hv hw
    exact Source.apart_of_locate hne hv hw

/-- Two files whose names have the same digits and dashes in another order. -/
def digitsDisk : Disk :=
  ⟨[(["version-1-11-0-0.bin"], .file ⟨⟨0⟩, ByteArray.empty⟩),
    (["version-11-1-0-0.bin"], .file ⟨⟨1⟩, ByteArray.empty⟩)], [], 2⟩

theorem locate_digitsDisk (v : Version) (name : String) {f : File}
    (hname : databaseFileName "version" v "bin" = name)
    (hwalk : Disk.walkable ⟨name⟩ = .ok ()) (hfile : digitsDisk.node? [name] = some (.file f)) :
    ∃ g, Source.locate .f4se ⟨""⟩ v (.ofDisk digitsDisk) = (.ok ⟨⟨name⟩, .f4se, .packed⟩, g) := by
  have hplain : Plain name := hname ▸ plain_databaseFileName .version v .bin
  have hpath : (⟨.version, .bin⟩ : Source.Candidate).path ⟨""⟩ v = ⟨name⟩ := by
    rw [Source.Candidate.path, FileRoot.text, FileExtension.text, hname,
      Path.join_of_empty hplain rfl]
  have hfound : digitsDisk.isFile ((⟨.version, .bin⟩ : Source.Candidate).path ⟨""⟩ v) = true := by
    have hnode : digitsDisk.node? (digitsDisk.home ++ [name]) = some (.file f) := hfile
    rw [hpath, Disk.isFile, Disk.find_name hplain hwalk rfl, hnode]
    rfl
  have hfirst : Source.candidates .f4se = [⟨.version, .bin⟩, ⟨.version, .csv⟩] := rfl
  obtain ⟨g, hlocate⟩ := Source.locate_of_isFile (h := .ofDisk digitsDisk) hfirst hfound
  rw [hpath] at hlocate
  exact ⟨g, hlocate⟩

theorem names_separate_digits :
    (∃ source source' g g',
      Source.locate .f4se ⟨""⟩ ⟨1, 11, 0, 0⟩ (.ofDisk digitsDisk) = (.ok source, g)
        ∧ Source.locate .f4se ⟨""⟩ ⟨11, 1, 0, 0⟩ (.ofDisk digitsDisk) = (.ok source', g')
        ∧ Disk.Apart source.path source'.path)
      ∧ ∀ a, regionName ⟨1, 11, 0, 0⟩ a ≠ regionName ⟨11, 1, 0, 0⟩ a := by
  have hne : (⟨1, 11, 0, 0⟩ : Version) ≠ ⟨11, 1, 0, 0⟩ := by decide
  obtain ⟨hregions, -, hdigest, -, hfound⟩ := names_separate Digest.ofSource
  obtain ⟨g, hv⟩ := locate_digitsDisk ⟨1, 11, 0, 0⟩ "version-1-11-0-0.bin" (by decide) rfl rfl
  obtain ⟨g', hw⟩ := locate_digitsDisk ⟨11, 1, 0, 0⟩ "version-11-1-0-0.bin" (by decide) rfl rfl
  refine ⟨⟨_, _, g, g', hv, hw, hfound _ _ _ hne _ _ _ _ _ _ _ _ hv hw⟩, fun a hname => hne ?_⟩
  rw [hdigest] at hname
  exact ((hregions _ _ a a).1 hname).1

end OffsetAtlas
