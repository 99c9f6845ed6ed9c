/-
OffsetAtlas.Session — databases and regions in use, by name.

A session is what one process has: a host, the databases and the regions it holds under names of its
own, and the database installed for everyone. Taking something under a name that is in use lets go
of the older thing once the newer one is there; what fails changes no name. A mapped file that is
written in place changes under those who map it, but not the index a database already keeps.
-/
import OffsetAtlas.Identifier
import OffsetAtlas.Packing

namespace OffsetAtlas

/-- Everything a process has in use. -/
structure Session where
  host : Host
  databases : List (String × Database)
  regions : List (String × Region)
  installed : Installed

namespace Session

/-- A session on a disk, with nothing in use. -/
def ofDisk (d : Disk) : Session :=
  ⟨.ofDisk d, [], [], none⟩

/-- Names without one of them. -/
def forget {α : Type} (name : String) (named : List (String × α)) : List (String × α) :=
  named.filter (·.1 ≠ name)

/-- Does something on the host. -/
def run {α : Type} (x : HostM α) (s : Session) : Except Failure α × Session :=
  let r := x s.host
  (r.1, { s with host := r.2 })

/-! ## Databases -/

/-- The database of this name. -/
def database? (s : Session) (name : String) : Option Database :=
  s.databases.lookup name

/-- Lets go of the database of this name; whether there was one. -/
def dropDatabase (name : String) (s : Session) : Bool × Session :=
  match s.database? name with
  | none => (false, s)
  | some db =>
    (true, { s with host := db.release s.host, databases := forget name s.databases })

/-- Takes a database under a name. -/
def takeDatabase (name : String) (x : HostM Database) (s : Session) :
    Except Failure Database × Session :=
  match s.run x with
  | (.error e, s) => (.error e, s)
  | (.ok db, s) =>
    let s := (s.dropDatabase name).2
    (.ok db, { s with databases := (name, db) :: s.databases })

/-- The index of the database of this name, which that database keeps from then on. -/
def offsetIndex (name : String) (s : Session) : Option OffsetIndex × Session :=
  match s.database? name with
  | none => (none, s)
  | some db =>
    (some db.offsetIndex, { s with databases := (name, db.keepIndex) :: forget name s.databases })

/-! ## Regions -/

/-- The region of this name. -/
def region? (s : Session) (name : String) : Option Region :=
  s.regions.lookup name

/-- Lets go of the region of this name; whether there was one. -/
def dropRegion (name : String) (s : Session) : Bool × Session :=
  match s.region? name with
  | none => (false, s)
  | some r => (true, { s with host := r.release s.host, regions := forget name s.regions })

/-- Takes a region under a name. -/
def takeRegion (name : String) (x : HostM Region) (s : Session) : Except Failure Region × Session :=
  match s.run x with
  | (.error e, s) => (.error e, s)
  | (.ok r, s) =>
    let s := (s.dropRegion name).2
    (.ok r, { s with regions := (name, r) :: s.regions })

/-! ## The installed database -/

/-- The installed database, opened now if there is none. -/
def getOrOpen (config : Config) (running : Version) (s : Session) :
    Except Failure Database × Session :=
  let r := s.installed.getOrOpen config running s.host
  (r.1.1, { s with host := r.2, installed := r.1.2 })

/-- Installs the database of this name, which is then nobody's but the process's. A database that is
refused stays where it is. -/
def install (name : String) (s : Session) : Option (Except Database Database) × Session :=
  match s.database? name with
  | none => (none, s)
  | some db =>
    let r := s.installed.install db
    match r.1 with
    | .ok db =>
      (some (.ok db), { s with databases := forget name s.databases, installed := r.2 })
    | .error db => (some (.error db), { s with installed := r.2 })

/-! ## Files written in place -/

/-- A table in a block of the same size. -/
def moved (t : Table) (block : ByteArray) (same : block.size = t.block.size) : Table :=
  match t with
  | .ordered t => .ordered ⟨{ t.span with block, inside := same ▸ t.span.inside }⟩
  | .dense t => .dense ⟨{ t.span with block, inside := same ▸ t.span.inside }⟩

/-- A region after a file has been written: if it maps that file it has the file's bytes, as many as
it had before. Of a file that became shorter the rest reads as zeros. That is so up to the end of
its last page; a process that reads behind that page is killed, which is not modelled: here it goes
on and finds zeros. -/
def reread (f : File) (r : Region) : Region :=
  let file := match r.backing with
    | .anonymous => none
    | .mapped id _ => some id
    | .held hold => some hold.file
  if file = some f.id then { r with bytes := Region.fitted r.bytes.size f.contents } else r

/-- A database after a file has been written: its table is the file's, and its index the one it
keeps. -/
def rereadDatabase (f : File) (db : Database) : Database :=
  let region := reread f db.region
  if h : region.bytes.size = db.table.block.size then
    { db with store := ⟨region, moved db.table region.bytes h⟩ }
  else db

/-- Packs a file of rows, and lets those who map the file that was written see it. -/
def packCsv (input output : Path) (o : PackOptions) (s : Session) : Except Failure Nat × Session :=
  match s.run (Packing.packCsv input output o) with
  | (.error e, s) => (.error e, s)
  | (.ok n, s) =>
    match s.host.disk.file? output with
    | none => (.ok n, s)
    | some f =>
      (.ok n, { s with
        databases := s.databases.map fun named => (named.1, rereadDatabase f named.2)
        regions := s.regions.map fun named => (named.1, reread f named.2)
        installed := s.installed.map (rereadDatabase f) })

/-- The session with an empty log, and what was in the log. -/
def takeLog (s : Session) : List Notice × Session :=
  (s.host.log.toList, { s with host := { s.host with log := #[] } })

end Session

end OffsetAtlas
