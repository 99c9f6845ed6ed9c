/-
OffsetAtlas.CommandLine.Reach — the files that a command line can touch.

A program that keeps its files elsewhere than on a `Disk` has to bring these there before it runs,
and back afterwards. Which shared regions there can be depends on the contents of the database
files, so these come first.
-/
import OffsetAtlas.CommandLine.Source

namespace OffsetAtlas.CommandLine

/-- A path and the directories above it, the outermost first; `fuel` bounds their number. -/
def lineageAux : Nat → Path → List Path
  | 0, p => [p]
  | fuel + 1, p =>
    match p.parent? with
    | none => [p]
    | some above => if above.text = "" then [p] else lineageAux fuel above ++ [p]

/-- A path and the directories above it, the outermost first. -/
def lineage (p : Path) : List Path :=
  lineageAux p.text.length p

/-- The files that the database can be in. -/
def SourceArguments.files (s : SourceArguments) : List Path :=
  match s.file with
  | some file => [file]
  | none =>
    let config := s.config .anonymous .empty
    match config.resolveLoader with
    | .error _ => []
    | .ok loader =>
      (Source.candidates loader).map (·.path config.resolveSearchDir s.version)

namespace Arguments

/-- The files that a command names or looks for. -/
def files (a : Arguments) : List Path :=
  match a.command with
  | .query source _ => source.files
  | .pack input output _ => [input, output]

/-- The files of the shared regions that a database file with these bytes can be decoded into: the
tag of a binary file is not part of the source. -/
def regionFiles (a : Arguments) (usual : Path) (contents : List UInt8) : List Path :=
  match a.command, regionLocation usual a.regionDir a.isPrivate with
  | .query source _, .shared dir =>
    [contents, contents.drop 4].flatMap fun bytes =>
      let name := regionName source.version bytes
      [dir.join name, dir.join (lockName name)]
  | _, _ => []

end Arguments

end OffsetAtlas.CommandLine
