/-
OffsetAtlas.Disk.Change — files and directories made, moved and taken away.

Operations give the changed disk, or say why they cannot be done. A file written in place stays the
same file, and a file that replaces another is a new one. `makeDirectory`, and `replace` through it,
can change the disk and still fail: the directories made before the failure stay. So can
`overwriteOn`. The file is emptied before it is written, and a `Device` that does not take all bytes
leaves it with those that it took.
-/
import OffsetAtlas.Disk.Walk

namespace OffsetAtlas

namespace Disk

/-! ## Files -/

/-- The contents of a file. -/
def read (d : Disk) (p : Path) : Except DiskFault ByteArray :=
  match d.find p with
  | .error e => .error e
  | .ok (_, .directory) => .error .isADirectory
  | .ok (_, .file f) => .ok f.contents

/-- Makes an empty file where nothing is yet. -/
def create (d : Disk) (p : Path) : Except DiskFault (Place × FileId × Disk) :=
  match d.target p with
  | .error e => .error e
  | .ok (_, some _) => .error .alreadyExists
  | .ok (place, none) => .ok (place, d.putNew place .empty)

/-- Makes an empty file unless there is a file already. -/
def touch (d : Disk) (p : Path) : Except DiskFault Disk :=
  match d.target p with
  | .error e => .error e
  | .ok (_, some .directory) => .error .isADirectory
  | .ok (_, some (.file _)) => .ok d
  | .ok (place, none) => .ok (d.putNew place .empty).2

/-- Takes a file away. -/
def remove (d : Disk) (p : Path) : Except DiskFault Disk :=
  match d.find p with
  | .error e => .error e
  | .ok (_, .directory) => .error .isADirectory
  | .ok (place, .file _) => .ok (d.erase place)

/-! ## Files written in place -/

/-- Opens a file to write it anew. It is made, or it stays the same file and loses its bytes. -/
def openEmpty (d : Disk) (p : Path) : Except DiskFault (Place × Disk) :=
  match d.target p with
  | .error e => .error e
  | .ok (_, some .directory) => .error .isADirectory
  | .ok (place, some (.file _)) => .ok (place, d.write place ByteArray.empty)
  | .ok (place, none) => .ok (place, (d.putNew place .empty).2)

/-- What files are stored on. -/
structure Device where
  /-- Of bytes that are written, how many are taken before there is a fault, if there is one. -/
  fault? : ByteArray → Option (Nat × DiskFault)

/-- A device that takes all bytes. -/
def Device.sound : Device :=
  ⟨fun _ => none⟩

/-- Writes a file in place on a device. What the device took before a fault stays in the file. -/
def overwriteOn (device : Device) (d : Disk) (p : Path) (contents : ByteArray) :
    Except DiskFault Unit × Disk :=
  match d.openEmpty p with
  | .error e => (.error e, d)
  | .ok (place, d) =>
    match device.fault? contents with
    | none => (.ok (), d.write place contents)
    | some (taken, e) => (.error e, d.write place (contents.extract 0 taken))

/-- Writes a file in place on a device that takes all bytes. -/
def overwrite (d : Disk) (p : Path) (contents : ByteArray) : Except DiskFault Disk :=
  match d.overwriteOn .sound p contents with
  | (.error e, _) => .error e
  | (.ok (), d) => .ok d

/-! ## Directories -/

/-- Makes one directory. -/
def makeOne (d : Disk) (p : Path) : Except DiskFault Disk := do
  match ← d.ending p with
  | .dots _ => throw .alreadyExists
  | .name dir name _ =>
    match ← d.entry dir name with
    | (_, some _) => throw .alreadyExists
    | (place, none) => return d.put place .directory

/-- Makes one directory unless it is there. -/
def ensureOne (d : Disk) (p : Path) : Except DiskFault Disk :=
  match d.makeOne p with
  | .ok d => .ok d
  | .error e => if d.isDirectory p then .ok d else .error e

/-- Makes the first of these directories, each of which lies below the next; the next are made only
if it cannot do without them. -/
def ensureAll : List Path → Disk → Except DiskFault Unit × Disk
  | [], d => (.ok (), d)
  | p :: above, d =>
    match d.ensureOne p with
    | .ok d => (.ok (), d)
    | .error .notFound =>
      match ensureAll above d with
      | (.error e, d) => (.error e, d)
      | (.ok (), d) =>
        match d.ensureOne p with
        | .ok d => (.ok (), d)
        | .error e => (.error e, d)
    | .error e => (.error e, d)

/-- Makes a directory and those above it. The directories made before a failure stay. -/
def makeDirectory (d : Disk) (p : Path) : Except DiskFault Unit × Disk :=
  ensureAll p.ancestors d

/-- Replaces a file by a new one; missing directories are made. -/
def replace (d : Disk) (p : Path) (contents : ByteArray) : Except DiskFault Unit × Disk :=
  match d.makeDirectory (p.parent?.getD ⟨""⟩) with
  | (.error e, d) => (.error e, d)
  | (.ok (), d) =>
    match d.target p with
    | .error e => (.error e, d)
    | .ok (_, some .directory) => (.error .isADirectory, d)
    | .ok (place, _) => (.ok (), (d.putNew place contents).2)

/-- Whether one place lies at or below another. -/
def within (root place : Place) : Bool :=
  root.isPrefixOf place

/-- Moves a node and all that lies below it. -/
def move (d : Disk) (source target : Place) : Disk :=
  { d with
    nodes := (d.nodes.filter fun n => n.1 ≠ target).map fun n =>
      if within source n.1 then (target ++ n.1.drop source.length, n.2) else n }

/-- Puts a node that is at one place at another. What is there already is replaced, a file by a file
and an empty directory by a directory. -/
def supplant (d : Disk) (old new : Place) : Node → Option Node → Except DiskFault Disk
  | _, none => .ok (d.move old new)
  | .file _, some (.file _) => .ok (d.move old new)
  | .file _, some .directory => .error .isADirectory
  | .directory, some (.file _) => .error .notADirectory
  | .directory, some .directory =>
    if d.nodes.any fun n => within new n.1 && n.1 ≠ new then .error .notEmpty
    else .ok (d.move old new)

/-- Gives what is under one name another name. Only a directory's name can have slashes behind it,
nothing goes below itself, and nothing that holds it is replaced by it. -/
def renameEntry (d : Disk) : Ending → Ending → Except DiskFault Disk
  | .name oldDir oldName oldSlashes, .name newDir newName newSlashes => do
    match ← d.entry oldDir oldName with
    | (_, none) => throw .notFound
    | (old, some node) =>
      let (new, there) ← d.entry newDir newName
      if node.isFile ∧ (oldSlashes ∨ newSlashes) then throw .notADirectory
      else if within old newDir then throw .notAllowed
      else if within new oldDir then throw .notEmpty
      else if old = new then return d
      else d.supplant old new node there
  | _, _ => .error .busy

/-- Gives a file or a directory another path. -/
def rename (d : Disk) (source target : Path) : Except DiskFault Disk :=
  if hasNul target then .error .nulInPath
  else do d.renameEntry (← d.ending source) (← d.ending target)

end Disk

end OffsetAtlas
