/-
OffsetAtlas.Discovery — which file to load.

A plugin lies two directories below the one named after its loader, and its databases beside it. The
file names that a loader's databases can have are tried in order, binary before text.
-/
import OffsetAtlas.Host

namespace OffsetAtlas

/-- How a file has to be read. -/
inductive SourceKind where
  /-- A binary file with a tag in front. -/
  | tagged
  /-- A packed file. -/
  | packed
  /-- Rows of text. -/
  | csv
  deriving DecidableEq, Repr

/-- The kind as the log names it. -/
def SourceKind.title : SourceKind → String
  | .tagged => "Tagged"
  | .packed => "Legacy"
  | .csv => "Csv"

/-- A file to load. -/
structure Source where
  path : Path
  loader : Loader
  kind : SourceKind
  deriving DecidableEq, Repr

namespace Source

/-- The loader that the directory two levels above a plugin is named after. -/
def detectLoader (plugin : Path) : Except Failure Loader :=
  match (plugin.parent?.bind Path.parent?).bind Path.fileName? |>.bind Loader.ofDirectory? with
  | some loader => .ok loader
  | none => .error (.loaderUndetermined plugin)

/-- A file to look for. -/
structure Candidate where
  root : FileRoot
  extension : FileExtension
  deriving DecidableEq, Repr

/-- The files to look for, in order. -/
def candidates (loader : Loader) : List Candidate :=
  loader.roots.flatMap fun root => [⟨root, .bin⟩, ⟨root, .csv⟩]

namespace Candidate

/-- Where a file to look for would be. -/
def path (c : Candidate) (dir : Path) (version : Version) : Path :=
  dir.join (databaseFileName c.root.text version c.extension.text)

/-- How the file has to be read; one loader's binaries of the short root are packed files. -/
def kind (c : Candidate) (loader : Loader) : SourceKind :=
  match c.extension with
  | .csv => .csv
  | .bin => if loader = .f4se ∧ c.root = .version then .packed else .tagged

/-- What is said when the file is there. -/
def foundNotice (c : Candidate) (loader : Loader) (path : Path) : Notice :=
  match c.extension with
  | .csv => .info ("Found CSV Address Library " ++ path.text)
  | .bin => .info ("Found Address Library " ++ path.text ++ " (" ++ (c.kind loader).title ++ ")")

end Candidate

/-- Tries files in order; `tried` holds the paths tried so far, last first. -/
def locateAmong (loader : Loader) (dir : Path) (version : Version) :
    List Candidate → (tried : List Path) → HostM Source
  | [], tried => Attempt.fail (.databaseNotFound loader tried.reverse)
  | c :: rest, tried => do
    let path := c.path dir version
    Host.note (.debug ("Probing " ++ path.text))
    if ← Host.ask fun d => .ok (d.isFile path) then
      Host.note (c.foundNotice loader path)
      return ⟨path, loader, c.kind loader⟩
    else locateAmong loader dir version rest (path :: tried)

/-- The first of a loader's database files for a version that is there. -/
def locate (loader : Loader) (dir : Path) (version : Version) : HostM Source :=
  locateAmong loader dir version (candidates loader) []

end Source

end OffsetAtlas
