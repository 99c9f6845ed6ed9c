/-
OffsetAtlas.Loader — the script extenders that load plugins into a game.

The loader decides which database files are looked for, by the root of their name. A plugin lies
two directories below the one that is named after its loader.
-/
import OffsetAtlas.Version

namespace OffsetAtlas

/-- A script extender, or none. -/
inductive Loader where
  | absent
  | skse
  | f4se
  | sfse
  | obse
  deriving DecidableEq, Repr, Inhabited

/-- The beginning of a database file's name. -/
inductive FileRoot where
  | versionlib
  | version
  deriving DecidableEq, Repr

/-- What follows the last dot of a database file's name. -/
inductive FileExtension where
  | bin
  | csv
  deriving DecidableEq, Repr

/-- The root as it is written. -/
def FileRoot.text : FileRoot → String
  | .versionlib => "versionlib"
  | .version => "version"

/-- The extension as it is written. -/
def FileExtension.text : FileExtension → String
  | .bin => "bin"
  | .csv => "csv"

namespace Loader

/-- The loader's upper-case name, as directories and messages have it. -/
def name : Loader → String
  | .absent => "NONE"
  | .skse => "SKSE"
  | .f4se => "F4SE"
  | .sfse => "SFSE"
  | .obse => "OBSE"

/-- The loader's name with a capital letter, as summaries have it. -/
def title : Loader → String
  | .absent => "None"
  | .skse => "Skse"
  | .f4se => "F4se"
  | .sfse => "Sfse"
  | .obse => "Obse"

/-- The file roots to look for, the first choice first. -/
def roots : Loader → List FileRoot
  | .absent => []
  | .skse => [.versionlib, .version]
  | .f4se => [.version]
  | .sfse => [.versionlib]
  | .obse => [.versionlib]

/-- The loaders that have a directory. -/
def known : List Loader :=
  [.skse, .f4se, .sfse, .obse]

/-- The loader a directory is named after, ASCII letters in either case. -/
def ofDirectory? (dir : String) : Option Loader :=
  known.find? (·.name = dir.map Char.toUpper)

/-- The loader a text names; `none` is one too. -/
def parse? (s : String) : Option Loader :=
  if s.map Char.toUpper = "NONE" then some .absent else ofDirectory? s

end Loader

/-- The name of the database file of a version: root, version and extension. -/
def databaseFileName (root : String) (v : Version) (extension : String) : String :=
  root ++ "-" ++ v.join "-" ++ "." ++ extension

end OffsetAtlas
