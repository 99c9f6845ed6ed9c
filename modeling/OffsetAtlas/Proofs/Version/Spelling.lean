/-
OffsetAtlas.Proofs.Version.Spelling — which texts are versions.

Reading trims the text, cuts it at every dot and takes three or four parts; a part has to consist of
digits, although the numbers of the library may have a sign, and to stay below the bound of a
component. A text that spells a version is described here from the other side, as parts with a dot
between any two of them and blanks around the whole (`Version.Spells`). A part of digits has no dot
in it, so the parts that reading finds are the ones that were put together, and main statement is
that exactly these texts are read, as the version that they spell, while every other text is handed
back in the failure (`Version.parse_spelled`).

A version is displayed as such a text, with four parts and nothing around them.
-/
import OffsetAtlas.Failure
import OffsetAtlas.Proofs.Text.Numeral

namespace OffsetAtlas

open Text

namespace Version

variable {text part core : List Char} {parts : List (List Char)} {c : UInt16} {v : Version}

/-! ## Parts -/

/-- One or more decimal digits, which denote a component. -/
def Component (part : List Char) (c : UInt16) : Prop :=
  part ≠ [] ∧ (∀ d ∈ part, d.isDigit = true) ∧ Nat.ofDigitChars 10 part 0 = c.toNat

/-- Three or four parts that denote the components of a version. A fourth one that is missing is
zero. -/
inductive Parts : List (List Char) → Version → Prop where
  | three {a b c : List Char} {major minor patch : UInt16} (hmajor : Component a major)
    (hminor : Component b minor) (hpatch : Component c patch) : Parts [a, b, c] ⟨major, minor, patch, 0⟩
  | four {a b c d : List Char} {major minor patch build : UInt16} (hmajor : Component a major)
    (hminor : Component b minor) (hpatch : Component c patch) (hbuild : Component d build) :
    Parts [a, b, c, d] ⟨major, minor, patch, build⟩

theorem component?_eq_some_iff : component? part = some c ↔ Component part c := by
  cases part with
  | nil => simp [component?, Component]
  | cons d ds =>
    have hbound : 0 < UInt16.size := by decide
    have hread : component? (d :: ds) = some c
        ↔ Numeral.readDigits 10 UInt16.size 0 (d :: ds) = .ok c.toNat := by
      show (Numeral.readDigits 10 UInt16.size 0 (d :: ds)).toOption.map UInt16.ofNat = some c ↔ _
      cases hdigits : Numeral.readDigits 10 UInt16.size 0 (d :: ds) with
      | error fault => simp [Except.toOption]
      | ok n =>
        have hlt : n < UInt16.size := ((Numeral.readDigits_ten_eq_ok_iff hbound).1 hdigits).2.2
        simp only [Except.toOption, Option.map_some, Option.some.injEq, Except.ok.injEq]
        rw [← UInt16.toNat_inj, UInt16.toNat_ofNat_of_lt' hlt]
    rw [hread, Numeral.readDigits_ten_eq_ok_iff hbound]
    constructor
    · intro ⟨hdigits, hvalue, _⟩
      exact ⟨List.cons_ne_nil d ds, hdigits, hvalue⟩
    · intro ⟨_, hdigits, hvalue⟩
      exact ⟨hdigits, hvalue, c.toNat_lt⟩

theorem map_component?_eq_iff {cs : List UInt16} :
    parts.map component? = cs.map some ↔ List.Forall₂ Component parts cs := by
  rw [← List.forall₂_eq_eq_eq, List.forall₂_map_left_iff, List.forall₂_map_right_iff]
  simp only [component?_eq_some_iff]

/-- The parts between the dots decide. -/
theorem parse?_eq_some_iff {s : String} :
    parse? s = some v ↔ Parts (split '.' (trim s.toList)) v := by
  rw [parse?]
  generalize split '.' (trim s.toList) = parts
  constructor
  · intro h
    split at h
    · next major minor patch hparts =>
      cases h
      have hall : List.Forall₂ Component parts [major, minor, patch] :=
        map_component?_eq_iff.1 hparts
      obtain _ | ⟨ha, _ | ⟨hb, _ | ⟨hc, _ | _⟩⟩⟩ := hall
      exact .three ha hb hc
    · next major minor patch build hparts =>
      cases h
      have hall : List.Forall₂ Component parts [major, minor, patch, build] :=
        map_component?_eq_iff.1 hparts
      obtain _ | ⟨ha, _ | ⟨hb, _ | ⟨hc, _ | ⟨hd, _ | _⟩⟩⟩⟩ := hall
      exact .four ha hb hc hd
    · cases h
  · intro h
    cases h with
    | three ha hb hc =>
      simp only [List.map_cons, List.map_nil, component?_eq_some_iff.2 ha,
        component?_eq_some_iff.2 hb, component?_eq_some_iff.2 hc]
    | four ha hb hc hd =>
      simp only [List.map_cons, List.map_nil, component?_eq_some_iff.2 ha,
        component?_eq_some_iff.2 hb, component?_eq_some_iff.2 hc, component?_eq_some_iff.2 hd]

/-! ## Texts -/

/-- Parts with a dot between any two of them. -/
def Dotted (v : Version) (core : List Char) : Prop :=
  ∃ parts, core = ['.'].intercalate parts ∧ Parts parts v

/-- A version between blanks. -/
def Spells (text : List Char) (v : Version) : Prop :=
  Padded (Dotted v) text

theorem Parts.digits (h : Parts parts v) : ∀ part ∈ parts, ∀ c ∈ part, c.isDigit = true := by
  cases h <;> simp_all [Component]

theorem Parts.ne_nil (h : Parts parts v) : parts ≠ [] := by
  cases h <;> simp

/-- Digits and dots are visible. -/
theorem Dotted.solid (h : Dotted v core) : ∀ c ∈ core, isBlank c = false := by
  obtain ⟨parts, rfl, hparts⟩ := h
  intro c hc
  rcases mem_intercalate hc with rfl | ⟨part, hpart, hc⟩
  · rfl
  · exact Numeral.isBlank_of_isDigit (hparts.digits part hpart c hc)

theorem dotted_iff : Dotted v core ↔ Parts (split '.' core) v := by
  rw [split_eq_splitOn]
  constructor
  · intro h
    obtain ⟨parts, rfl, hparts⟩ := h
    have hdots : ∀ part ∈ parts, '.' ∉ part := fun part hpart hdot =>
      absurd (hparts.digits part hpart '.' hdot) (by decide)
    rwa [List.splitOn_intercalate '.' hdots hparts.ne_nil]
  · intro h
    exact ⟨_, (List.intercalate_splitOn '.').symm, h⟩

/-- A text is read exactly if it spells a version, and as that version. -/
theorem parse?_eq_some_iff_spells {s : String} : parse? s = some v ↔ Spells s.toList v := by
  rw [parse?_eq_some_iff, ← dotted_iff]
  exact (padded_iff fun core h => Dotted.solid h).symm

theorem parse_eq_ok_iff {s : String} : Version.parse s = .ok v ↔ Spells s.toList v := by
  rw [← parse?_eq_some_iff_spells, Version.parse]
  cases parse? s <;> simp

/-- What is no version is handed back as it was. -/
theorem parse_eq_error_iff {s : String} :
    Version.parse s = .error (.invalidVersion s) ↔ ∀ v, ¬ Spells s.toList v := by
  constructor
  · intro h v hv
    rw [parse_eq_ok_iff.2 hv] at h
    cases h
  · intro h
    cases hs : parse? s with
    | none => rw [Version.parse, hs]
    | some v => exact absurd (parse?_eq_some_iff_spells.1 hs) (h v)

/-! ## Displaying -/

/-- A number is written in digits that denote it. -/
theorem component_decimal (c : UInt16) : Component (Numeral.decimal c.toNat).toList c := by
  refine ⟨?_, fun d hd => Numeral.isDigit_of_mem_decimal hd, ?_⟩
  · rw [Numeral.toList_decimal]
    exact Nat.toDigits_ne_nil
  · rw [Numeral.toList_decimal, Nat.ofDigitChars_ten_toDigits]

theorem spells_display (v : Version) : Spells v.display.toList v := by
  have hparts : Parts (v.components.map fun c => (Numeral.decimal c.toNat).toList) v :=
    .four (component_decimal _) (component_decimal _) (component_decimal _) (component_decimal _)
  have hdisplay : v.display.toList
      = ['.'].intercalate (v.components.map fun c => (Numeral.decimal c.toNat).toList) := by
    rw [display, join, String.toList_intercalate, List.map_map]
    rfl
  refine ⟨[], _, [], ?_, by simp, by simp, _, hdisplay, hparts⟩
  simp

/-! ## Reading -/

/-- **Exactly the texts that spell a version are read**, as the version that they spell, and every
other text is in the failure, blanks and all. What is displayed is read back, so displaying what was
read gives a text that is read as the same version. -/
theorem parse_spelled (s : String) :
    (∀ v, Version.parse s = .ok v ↔ Spells s.toList v)
      ∧ (Version.parse s = .error (.invalidVersion s) ↔ ∀ v, ¬ Spells s.toList v)
      ∧ (∀ v, Version.parse v.display = .ok v)
      ∧ ∀ v, Version.parse s = .ok v → Version.parse v.display = Version.parse s := by
  have hdisplay : ∀ v, Version.parse v.display = .ok v := fun v => parse_eq_ok_iff.2 (spells_display v)
  refine ⟨fun v => parse_eq_ok_iff, parse_eq_error_iff, hdisplay, ?_⟩
  intro v hv
  rw [hdisplay, hv]

/-- Leading zeros, a missing fourth part, and blanks of two kinds. -/
theorem parse_spelled_zeros :
    Version.parse "\u00a001.0010.163\n" = .ok ⟨1, 10, 163, 0⟩
      ∧ Version.parse (⟨1, 10, 163, 0⟩ : Version).display = Version.parse "\u00a001.0010.163\n" := by
  obtain ⟨-, -, -, hagain⟩ := parse_spelled "\u00a001.0010.163\n"
  have hread : Version.parse "\u00a001.0010.163\n" = .ok ⟨1, 10, 163, 0⟩ := by decide
  exact ⟨hread, hagain _ hread⟩

end Version

end OffsetAtlas
