/-
OffsetAtlas.Database.Basic — a database that is open.

A database knows the file it came from, the version it describes and its table. `offset` answers the
one question it is there for; `summary` is what can be said about it. The index back from offsets is
built when it is first asked for and kept from then on: a table that changes later does not change
an index that is kept.
-/
import OffsetAtlas.Database.Load
import OffsetAtlas.Text.Json

namespace OffsetAtlas

open Text.Numeral (decimal)

/-- An open database. -/
structure Database where
  path : Path
  loader : Loader
  version : Version
  format : Format
  /-- The module's name, if the file has one. -/
  name : Option String
  store : Store
  /-- How the rows fared, if the file has rows. -/
  report : Option Csv.Report
  /-- The index that is kept, once there is one. -/
  kept : Option OffsetIndex

namespace Database

/-- The region of the table. -/
def region (db : Database) : Region :=
  db.store.region

/-- The table. -/
def table (db : Database) : Table :=
  db.store.table

/-- The offset of an identifier. -/
def offset (db : Database) (id : UInt64) : Except Failure UInt64 :=
  if db.table.length = 0 then .error .notLoaded
  else match db.table.find id with
    | some offset => .ok offset
    | none => .error (.idNotFound id db.version)

/-- The index from offsets back to identifiers: the one that is kept, or else that of the table as
it is now. -/
def offsetIndex (db : Database) : OffsetIndex :=
  db.kept.getD (.build db.table)

/-- The database once its index has been asked for. -/
def keepIndex (db : Database) : Database :=
  { db with kept := some db.offsetIndex }

/-- Lets go of the database. -/
def release (db : Database) (h : Host) : Host :=
  db.region.release h

/-! ## Summaries -/

/-- What can be said about a database. -/
structure Summary where
  path : Path
  loader : Loader
  format : Format
  version : Version
  name : Option String
  entries : Nat
  region : String
  role : Role
  bytes : Nat
  /-- The digest of the region, in upper-case hexadecimal. -/
  digest : String
  report : Option Csv.Report

/-- The summary of a database. -/
def summary (db : Database) : Summary where
  path := db.path
  loader := db.loader
  format := db.format
  version := db.version
  name := db.name
  entries := db.table.length
  region := db.region.name
  role := db.region.role
  bytes := db.region.bytes.size
  digest := Digest.sha512Hex (octets db.region.bytes)
  report := db.report

/-- The summary line by line. -/
def Summary.lines (s : Summary) : List String :=
  ["Path:     " ++ s.path.text, "Loader:   " ++ s.loader.name, "Format:   " ++ s.format.display,
    "Version:  " ++ s.version.display]
    ++ (match s.name with
      | some name => ["Module:   " ++ name]
      | none => [])
    ++ ["Entries:  " ++ decimal s.entries,
      "Region:   " ++ s.region ++ " (" ++ s.role.title ++ ", " ++ decimal s.bytes ++ " bytes)",
      "SHA-512:  " ++ s.digest]
    ++ (match s.report with
      | some r => ["CSV rows: " ++ decimal r.valid ++ " valid, " ++ decimal r.invalid
        ++ " invalid, " ++ decimal r.duplicates ++ " duplicate"]
      | none => [])

/-- A value, or null. -/
def jsonOption {α : Type} (f : α → Text.Json) : Option α → Text.Json
  | some a => f a
  | none => .null

/-- The report on the rows as JSON. -/
def jsonReport (r : Csv.Report) : Text.Json :=
  .object [("valid", .number r.valid), ("invalid", .number r.invalid),
    ("duplicates", .number r.duplicates), ("unique", .number r.unique),
    ("expected", jsonOption .number r.expected), ("version_string", jsonOption .text r.version)]

/-- The summary as JSON. -/
def Summary.json (s : Summary) : Text.Json :=
  .object [("path", .text s.path.text), ("loader", .text s.loader.title),
    ("format", .text s.format.display), ("version", .text s.version.display),
    ("name", jsonOption .text s.name), ("entries", .number s.entries), ("region", .text s.region),
    ("role", .text s.role.title), ("bytes", .number s.bytes), ("sha512", .text s.digest),
    ("csv", jsonOption jsonReport s.report)]

end Database

end OffsetAtlas
