/-
OffsetAtlas.CommandLine.Source — the database that a command line means.

A file that is named is loaded as it is, its kind told by its extension unless it is said to be
packed. Otherwise the database is looked for as a plugin would.
-/
import OffsetAtlas.CommandLine.Arguments
import OffsetAtlas.Database.Open

namespace OffsetAtlas.CommandLine

/-- Where tables are kept: in private if that is asked for, else in the directory given, else in the
usual one. -/
def regionLocation (usual : Path) (dir : Option Path) (isPrivate : Bool) : RegionLocation :=
  if isPrivate then .anonymous else .shared (dir.getD usual)

namespace SourceArguments

/-- How the database is to be opened. -/
def config (s : SourceArguments) (region : RegionLocation) (denylist : Denylist) : Config :=
  ⟨s.plugin, s.loader, s.dir, region, denylist⟩

/-- How a named file has to be read. -/
def kindOf (s : SourceArguments) (file : Path) : SourceKind :=
  if s.isPacked then .packed
  else if (file.extension?.map fun e => e.map Char.toLower) = some FileExtension.csv.text then .csv
  else .tagged

/-- Opens the database. -/
def openDatabase (s : SourceArguments) (config : Config) : HostM Database :=
  match s.file with
  | some file => Database.load ⟨file, config.loader.getD .absent, s.kindOf file⟩ s.version config
  | none => Database.find config s.version

end SourceArguments

end OffsetAtlas.CommandLine
