/-
OffsetAtlas.Region — blocks of bytes that tables lie in.

A region is either a database file as it is, or a block with a name that whoever needs it first
fills. Named blocks live as files in a region directory, so that everyone who needs the same block
shares it: `createOrAttach` fills a new file or attaches to the one that is there, and `release`
deletes the file when its last holder lets go. A private block has a name but no file. Beside each
file `name` stands `name.lock`, which is made whenever the file is created, attached or released.

The file of a block is made before it is filled: it is empty at first, then it has its size and
zeros, and then a `Filling` writes into it. A filling may fail with a part of the block written, and
the file is deleted then.

A name carries the version and the first digits of the digest of the bytes that the block is made
from (`regionName`), so one name stands for one content.
-/
import OffsetAtlas.Digest.Sha512
import OffsetAtlas.Host
import OffsetAtlas.Text.Quoted

namespace OffsetAtlas

open Text.Numeral (decimal)

/-- How a region was come by. -/
inductive Role where
  /-- Made and filled. -/
  | owner
  /-- Found as it is. -/
  | attached
  deriving DecidableEq, Repr

/-- The role as summaries name it. -/
def Role.title : Role → String
  | .owner => "Owner"
  | .attached => "Attached"

/-- A hold on the file of a shared region. -/
structure Hold where
  file : FileId
  path : Path
  lockPath : Path
  deriving DecidableEq

/-- What a region's bytes are backed by. -/
inductive Backing where
  /-- Memory of its own. -/
  | anonymous
  /-- A file that is read in place. -/
  | mapped (file : FileId) (path : Path)
  /-- A shared file, held until the region is released. -/
  | held (hold : Hold)
  deriving DecidableEq

/-- A block of bytes and where it comes from. -/
structure Region where
  name : String
  role : Role
  bytes : ByteArray
  backing : Backing

/-- Where named blocks live. -/
inductive RegionLocation where
  /-- As files in a directory. -/
  | shared (dir : Path)
  /-- In memory of one's own. -/
  | anonymous
  deriving DecidableEq, Repr

/-! ## Names -/

/-- What every region name starts with. -/
def regionNameStart : String := "ADDRLIB_IDDB_OFFSETS"

/-- How many digits of the source's digest a region name carries. -/
def sourceTagLength : Nat := 16

/-- The digits by which a region name tells sources apart. -/
def sourceTag (source : List UInt8) : String :=
  String.ofList ((Digest.sha512Hex source).toList.take sourceTagLength)

/-- The name of the region for a version and the bytes that it is made from. -/
def regionName (v : Version) (source : List UInt8) : String :=
  regionNameStart ++ "_" ++ v.join "_" ++ "_" ++ sourceTag source

/-- The name of the lock beside a region. -/
def lockName (name : String) : String :=
  name ++ ".lock"

/-! ## Looking at regions -/

namespace Region

/-- The file behind a region. -/
def path? (r : Region) : Option Path :=
  match r.backing with
  | .anonymous => none
  | .mapped _ path => some path
  | .held hold => some hold.path

/-- The hold that a region has on its file. -/
def hold? (r : Region) : Option Hold :=
  match r.backing with
  | .held hold => some hold
  | _ => none

/-- The region in one line. -/
def describe (r : Region) : String :=
  let path := match r.path? with
    | some p => "Some(" ++ Text.quoted p.text ++ ")"
    | none => "None"
  "SharedRegion \x7b name: " ++ Text.quoted r.name ++ ", role: " ++ r.role.title ++ ", len: "
    ++ decimal r.bytes.size ++ ", path: " ++ path ++ " \x7d"

end Region

/-- The location in one line. -/
def RegionLocation.describe : RegionLocation → String
  | .shared dir => "Shared(" ++ Text.quoted dir.text ++ ")"
  | .anonymous => "Private"

/-! ## Making regions -/

namespace Region

/-- A block in memory of its own. -/
def ofBytes (name : String) (bytes : ByteArray) : Region :=
  ⟨name, .owner, bytes, .anonymous⟩

/-- What is said about a region that was come by. -/
def arrivalNotice (what subject : String) (size : Nat) : Notice :=
  .debug (what ++ " " ++ subject ++ " (" ++ decimal size ++ " bytes)")

/-- Reads a file in place. -/
def mapFile (path : Path) : HostM Region :=
  Host.ask fun d =>
    match d.find path with
    | .error e => .error (.notOpened path e)
    | .ok (_, .directory) => .error (.disk .notMappable)
    | .ok (_, .file f) =>
      .ok ⟨path.fileName?.getD "", .attached, f.contents, .mapped f.id path⟩

/-- A block of exactly this size: the bytes cut to it, or zeros behind them. -/
def fitted (size : Nat) (bytes : ByteArray) : ByteArray :=
  if bytes.size = size then bytes
  else
    let kept := bytes.data.toList.take size
    ⟨(kept ++ List.replicate (size - kept.length) 0).toArray⟩

/-- A block of so many zeros. -/
def zeros (size : Nat) : ByteArray :=
  ⟨Array.replicate size 0⟩

/-- Bytes, as far as a block has room for them, in front of what the block has behind them. -/
def overlaid (block bytes : ByteArray) : ByteArray :=
  bytes.extract 0 block.size ++ block.extract bytes.size block.size

@[simp] theorem size_overlaid (block bytes : ByteArray) :
    (overlaid block bytes).size = block.size := by
  simp only [overlaid, ByteArray.size_append, ByteArray.size_extract]
  omega

/-- What fills a block. It writes into the block that it is given, which keeps its size, and may
fail when it has written a part. -/
structure Filling where
  run : Thunk ByteArray → Except Failure Unit × Thunk ByteArray
  size_run : ∀ block, (run block).2.get.size = block.get.size

/-- Works out bytes and copies them into the block. -/
def Filling.copying (fill : Unit → Except Failure ByteArray) : Filling where
  run block :=
    match fill () with
    | .error e => (.error e, block)
    | .ok bytes => (.ok (), .mk fun _ => overlaid block.get bytes)
  size_run block := by
    cases fill () with
    | error e => rfl
    | ok bytes => exact size_overlaid _ _

/-- Fills a block in memory of its own. -/
def createAnonymous (name : String) (size : Nat) (filling : Filling) : HostM Region := do
  let filled := filling.run (zeros size)
  Attempt.ofExcept filled.1
  Host.note (arrivalNotice "Created private region" name size)
  return ofBytes name filled.2.get

/-- Takes a hold on a file. -/
def takeHold (hold : Hold) : HostM Unit :=
  Attempt.change fun h => ((), { h with holds := hold.file :: h.holds })

/-- Makes the lock beside a region, unless it is there. -/
def lock (path : Path) : HostM Unit :=
  Host.alter fun d => (d.touch path).mapError (.notOpened path)

/-- Makes the directory of shared regions, unless it is there. -/
def makeHome (dir : Path) : HostM Unit := fun h =>
  match h.disk.makeDirectory dir with
  | (.ok (), d) => (.ok (), { h with disk := d })
  | (.error e, d) => (.error (.disk e), { h with disk := d })

/-- Makes the file of a shared region, still empty, unless something is there. -/
def makeFile (path : Path) : HostM (Option (Place × FileId)) := fun h =>
  match h.disk.create path with
  | .ok (place, id, d) => (.ok (some (place, id)), { h with disk := d })
  | .error .alreadyExists => (.ok none, h)
  | .error e => (.error (.notOpened path e), h)

/-- Attaches to a shared region that is there already. -/
def attach (name : String) (size : Nat) (path lockPath : Path) : HostM Region := do
  let node ← Host.ask fun d => (d.find path).mapError (.notOpened path)
  match node.2 with
  | .directory =>
    if directorySize = size then Attempt.fail (.disk .notMappable)
    else Attempt.fail (.regionSizeMismatch name size directorySize)
  | .file f =>
    if f.contents.size = size then
      let hold : Hold := ⟨f.id, path, lockPath⟩
      Host.note (arrivalNotice "Attached to shared region" path.text size)
      takeHold hold
      return ⟨name, .attached, f.contents, .held hold⟩
    else Attempt.fail (.regionSizeMismatch name size f.contents.size)

/-- Gives the empty file at a place its size and lets a filling write into it. What was written
before a failure stays in the file. -/
def populateNew (place : Place) (size : Nat) (filling : Filling) : HostM ByteArray := fun h =>
  let sized := h.disk.write place (zeros size)
  let filled := filling.run (zeros size)
  (filled.1.map fun _ => filled.2.get, { h with disk := sized.write place filled.2 })

/-- Deletes a file if what is done with it fails, and does not ask whether that can be done. -/
def removeOnFailure {α : Type} (path : Path) (x : HostM α) : HostM α := fun h =>
  match x h with
  | (.ok a, h) => (.ok a, h)
  | (.error e, h) => (.error e, { h with disk := (h.disk.remove path).toOption.getD h.disk })

/-- Fills the file of a shared region that was just made. -/
def createShared (name : String) (size : Nat) (filling : Filling) (path lockPath : Path)
    (place : Place) (id : FileId) : HostM Region := do
  let bytes ← removeOnFailure path (populateNew place size filling)
  let hold : Hold := ⟨id, path, lockPath⟩
  Host.note (arrivalNotice "Created shared region" path.text size)
  takeHold hold
  return ⟨name, .owner, bytes, .held hold⟩

/-- Fills the file of a shared region that was made just now, or attaches to what is there. -/
def enter (name : String) (size : Nat) (filling : Filling) (path lockPath : Path) :
    Option (Place × FileId) → HostM Region
  | some (place, id) => createShared name size filling path lockPath place id
  | none => attach name size path lockPath

/-- The named block of this size: found in the directory, or else filled. -/
def createOrAttachBy (location : RegionLocation) (name : String) (size : Nat) (filling : Filling) :
    HostM Region :=
  match location with
  | .anonymous => createAnonymous name size filling
  | .shared dir => do
    let path := dir.join name
    let lockPath := dir.join (lockName name)
    makeHome dir
    lock lockPath
    let made ← makeFile path
    enter name size filling path lockPath made

/-- The named block of this size: found in the directory, or else filled with bytes that are worked
out only then. -/
def createOrAttach (location : RegionLocation) (name : String) (size : Nat)
    (fill : Unit → Except Failure ByteArray) : HostM Region :=
  createOrAttachBy location name size (.copying fill)

/-! ## Letting go -/

/-- Whether a path still names this very file. -/
def stillNamed (d : Disk) (hold : Hold) : Bool :=
  (d.file? hold.path).map File.id = some hold.file

/-- Lets go of a file. The last holder deletes it, unless the path has come to name another file or
the lock cannot be made. -/
def releaseHold (hold : Hold) (h : Host) : Host :=
  let others := h.holds.erase hold.file
  match h.disk.touch hold.lockPath with
  | .error _ => { h with holds := others }
  | .ok d =>
    if stillNamed d hold ∧ hold.file ∉ others then
      match d.remove hold.path with
      | .ok d =>
        Host.noted ⟨d, others, h.log⟩
          (.debug ("Removed shared region " ++ hold.path.text ++ " (last holder)"))
      | .error e =>
        Host.noted ⟨d, others, h.log⟩
          (.debug ("Could not remove shared region " ++ hold.path.text ++ ": " ++ e.message))
    else ⟨d, others, h.log⟩

/-- Lets go of a region. -/
def release (r : Region) (h : Host) : Host :=
  match r.hold? with
  | some hold => releaseHold hold h
  | none => h

/-- Lets go of a region if what is done with it fails. -/
def releaseOnFailure {α : Type} (r : Region) (x : HostM α) : HostM α := fun h =>
  match x h with
  | (.ok a, h) => (.ok a, h)
  | (.error e, h) => (.error e, r.release h)

/-- Deletes a shared region and its lock whoever holds it; holders keep their bytes. -/
def remove (dir : Path) (name : String) : HostM Bool := fun h =>
  let unlocked := fun (d : Disk) => (d.remove (dir.join (lockName name))).toOption.getD d
  match h.disk.remove (dir.join name) with
  | .ok d => (.ok true, { h with disk := unlocked d })
  | .error .notFound => (.ok false, { h with disk := unlocked h.disk })
  | .error e => (.error (.disk e), h)

end Region

end OffsetAtlas
