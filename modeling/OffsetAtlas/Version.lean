/-
OffsetAtlas.Version — the four-component version of a game module.

A database belongs to one version of one module: the version picks the file to look for and is
checked against the file's header. `parse?` reads three or four parts separated by dots, a missing
fourth one being zero; `display` always writes four. Versions are ordered component by component.
-/
import OffsetAtlas.Text.WhiteSpace
import OffsetAtlas.Text.Numeral

namespace OffsetAtlas

open Text

/-- Major, minor, patch and build number of a module. -/
structure Version where
  major : UInt16
  minor : UInt16
  patch : UInt16
  build : UInt16
  deriving DecidableEq, Repr, Inhabited

namespace Version

/-- The components, most significant first. -/
def components (v : Version) : List UInt16 :=
  [v.major, v.minor, v.patch, v.build]

/-- All four components in decimal with `sep` between them. -/
def join (sep : String) (v : Version) : String :=
  sep.intercalate (v.components.map fun c => Numeral.decimal c.toNat)

/-- The version as people write it. -/
def display (v : Version) : String :=
  v.join "."

/-- The version that header words stand for; each word is cut to its low 16 bits. -/
def ofWords (major minor patch build : UInt32) : Version :=
  ⟨major.toUInt16, minor.toUInt16, patch.toUInt16, build.toUInt16⟩

/-- The order of the first component in which two versions differ. -/
def compare (a b : Version) : Ordering :=
  compareOfLessAndEq a.major b.major
    |>.then (compareOfLessAndEq a.minor b.minor)
    |>.then (compareOfLessAndEq a.patch b.patch)
    |>.then (compareOfLessAndEq a.build b.build)

/-! ## Reading -/

/-- One component: ASCII digits only, denoting at most 65535. -/
def component? (part : List Char) : Option UInt16 :=
  match part with
  | [] => none
  | cs => (Numeral.readDigits 10 UInt16.size 0 cs).toOption.map UInt16.ofNat

/-- The version a text spells, white space at its ends aside. -/
def parse? (s : String) : Option Version :=
  match (split '.' (trim s.toList)).map component? with
  | [some major, some minor, some patch] => some ⟨major, minor, patch, 0⟩
  | [some major, some minor, some patch, some build] => some ⟨major, minor, patch, build⟩
  | _ => none

end Version

end OffsetAtlas
