/-
OffsetAtlas.Host — the state that databases and regions share.

Besides the disk a host knows which files are held as shared regions, one mention for each hold, and
keeps the log. A file is deleted with its last hold, so the holds have to be counted here and not by
those who hold.
-/
import OffsetAtlas.Attempt
import OffsetAtlas.Disk.Change
import OffsetAtlas.Notice

namespace OffsetAtlas

/-- A disk, the holds on its files, and the log. -/
structure Host where
  disk : Disk
  holds : List FileId
  log : Array Notice

/-- Something done on a host. -/
abbrev HostM := Attempt Host

namespace Host

/-- A host with this disk, no holds and an empty log. -/
def ofDisk (d : Disk) : Host :=
  ⟨d, [], #[]⟩

/-- The host with one more line in its log. -/
def noted (h : Host) (n : Notice) : Host :=
  { h with log := h.log.push n }

/-- Adds a line to the log. -/
def note (n : Notice) : HostM Unit :=
  Attempt.change fun h => ((), h.noted n)

/-- Adds lines to the log. -/
def noteAll (ns : List Notice) : HostM Unit :=
  Attempt.change fun h => ((), ns.foldl noted h)

theorem note_bind {α : Type} (n : Notice) (f : Unit → HostM α) (h : Host) :
    (note n >>= f) h = f () (h.noted n) :=
  Attempt.bind_of_ok rfl f

theorem noteAll_bind {α : Type} (ns : List Notice) (f : Unit → HostM α) (h : Host) :
    (noteAll ns >>= f) h = f () (ns.foldl noted h) :=
  Attempt.bind_of_ok rfl f

/-- Asks the disk. -/
def ask {α : Type} (f : Disk → Except Failure α) : HostM α := fun h =>
  (f h.disk, h)

/-- Changes the disk if it can be done. -/
def alter (f : Disk → Except Failure Disk) : HostM Unit := fun h =>
  match f h.disk with
  | .ok d => (.ok (), { h with disk := d })
  | .error e => (.error e, h)

/-- Writes a file in place on a device. What the device took before a fault stays in the file. -/
def overwriteOn (device : Disk.Device) (p : Path) (contents : ByteArray) : HostM Unit := fun h =>
  let written := h.disk.overwriteOn device p contents
  (written.1.mapError .disk, { h with disk := written.2 })

end Host

end OffsetAtlas
