/-
OffsetAtlas.Config — how databases are to be opened.
-/
import OffsetAtlas.Denylist
import OffsetAtlas.Discovery
import OffsetAtlas.Region

namespace OffsetAtlas

/-- Where to look for a database and what to do with it. -/
structure Config where
  /-- The plugin that asks; its place tells the loader and the directory. -/
  plugin : Option Path
  /-- The loader, if it is not to be told from the plugin's place. -/
  loader : Option Loader
  /-- The directory to look in, if it is not the plugin's. -/
  searchDir : Option Path
  /-- Where decoded tables are kept. -/
  region : RegionLocation
  /-- The databases to refuse. -/
  denylist : Denylist

namespace Config

/-- The loader: as given, else told from the plugin's place. -/
def resolveLoader (c : Config) : Except Failure Loader :=
  match c.loader with
  | some loader => .ok loader
  | none => Source.detectLoader (c.plugin.getD ⟨""⟩)

/-- The directory: as given, else the plugin's, else the current one. -/
def resolveSearchDir (c : Config) : Path :=
  (c.searchDir <|> c.plugin.bind Path.parent?).getD ⟨"."⟩

end Config

end OffsetAtlas
