/-
OffsetAtlas.Database.Open — finding, decoding and checking a database.

`load` decodes one file and then asks the denylist; a table that is refused is let go of at once, so
a failed load holds nothing. `find` looks for the file first. One database can be installed for the
whole process: `Installed.getOrOpen` opens it at most once and hands out the same one ever after.
-/
import OffsetAtlas.Config
import OffsetAtlas.Database.Basic

namespace OffsetAtlas

open Text.Numeral (decimal)

namespace Database

/-- A decoded file that nobody has checked yet. -/
structure Decoded where
  format : Format
  store : Store
  name : Option String
  report : Option Csv.Report

/-- Decodes a binary file by the tag in front of it. -/
def decodeTagged (path : Path) (running : Version) (location : RegionLocation) : HostM Decoded := do
  let file ← Region.mapFile path
  let bytes := octets file.bytes
  let raw ← Attempt.ofExcept (Attempt.on (.ofBytes bytes) (Reader.u32 "format tag")).1
  match FormatTag.ofNumber? raw with
  | some .firstDelta =>
    let (store, header) ← Store.loadDelta (bytes.drop 4) running location
    return ⟨.ofTag .firstDelta, store, some header.name, none⟩
  | some .secondDelta =>
    let (store, header) ← Store.loadDelta (bytes.drop 4) running location
    return ⟨.ofTag .secondDelta, store, some header.name, none⟩
  | some .dense =>
    let (store, header) ← Store.ofDenseRegion file running
    return ⟨.dense, store, some header.name, none⟩
  | _ => Attempt.fail (.unsupportedFormat raw)

/-- Decodes a file of a known kind. -/
def decode (source : Source) (running : Version) (location : RegionLocation) : HostM Decoded :=
  match source.kind with
  | .packed => do
    let store ← Store.loadPacked source.path
    return ⟨.packed, store, none, none⟩
  | .csv => do
    let (store, report) ← Store.loadCsv source.path running location
    return ⟨.csv, store, none, some report⟩
  | .tagged => decodeTagged source.path running location

/-- Asks the denylist about a table. -/
def validate (denylist : Denylist) (source : Source) (running : Version) (table : ByteArray) :
    HostM Unit := do
  let (verdict, notices) := denylist.check source.loader running table source.path
  Host.noteAll notices
  Attempt.ofExcept verdict

/-- Decodes a file and checks its table. -/
def load (source : Source) (running : Version) (config : Config) : HostM Database := do
  let decoded ← decode source running config.region
  decoded.store.region.releaseOnFailure do
    validate config.denylist source running decoded.store.region.bytes
    Host.note (.info ("Loaded Address Library " ++ source.path.text ++ " ("
      ++ decoded.format.display ++ ", " ++ decimal decoded.store.table.length ++ " entries, "
      ++ decoded.store.region.role.title ++ ")"))
    return ⟨source.path, source.loader, running, decoded.format, decoded.name, decoded.store,
      decoded.report, none⟩

/-- Finds the database of the running version and loads it. -/
def find (config : Config) (running : Version) : HostM Database := do
  let loader ← Attempt.ofExcept config.resolveLoader
  let dir := config.resolveSearchDir
  Host.note (.debug ("Searching " ++ dir.text ++ " for " ++ loader.name ++ " Address Library "
    ++ running.display))
  let source ← Source.locate loader dir running
  load source running config

end Database

/-! ## The database of the process -/

/-- The database of the whole process, once there is one. -/
abbrev Installed := Option Database

namespace Installed

/-- The installed database. -/
def get (i : Installed) : Except Failure Database :=
  match i with
  | some db => .ok db
  | none => .error .notLoaded

/-- Installs a database unless there is one; a database refused is given back. -/
def install (i : Installed) (db : Database) : Except Database Database × Installed :=
  match i with
  | some _ => (.error db, i)
  | none => (.ok db, some db)

/-- The installed database, opened now if there is none. -/
def getOrOpen (config : Config) (running : Version) (i : Installed) (h : Host) :
    (Except Failure Database × Installed) × Host :=
  match i with
  | some db => ((.ok db, i), h)
  | none =>
    match Database.find config running h with
    | (.ok db, h) => ((.ok db, some db), h)
    | (.error e, h) => ((.error e, none), h)

end Installed

end OffsetAtlas
