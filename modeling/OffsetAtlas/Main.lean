/-
OffsetAtlas.Main — the program.

It brings the files within reach of its command line onto a disk, runs there, brings back what has
changed, and prints.
-/
import OffsetAtlas.CommandLine.Reach
import OffsetAtlas.CommandLine.Run

namespace OffsetAtlas.Program

/-- Whether something has this path. -/
def isThere (p : Path) : IO Bool := do
  try
    discard (IO.FS.realPath p.text)
    return true
  catch _ => return false

/-- Brings onto the disk what has this path. -/
def bring (d : Disk) (p : Path) : IO Disk := do
  try
    return (d.replace p (← IO.FS.readBinFile p.text)).2
  catch _ => return if ← isThere p then (d.makeDirectory p).2 else d

/-- Brings back what has changed at this path. -/
def bringBack (before after : Disk) (p : Path) : IO Unit := do
  match before.file? p, after.file? p with
  | none, some f => IO.FS.writeBinFile p.text f.contents
  | some old, some f =>
    unless old.contents.data = f.contents.data do IO.FS.writeBinFile p.text f.contents
  | some _, none => IO.FS.removeFile p.text
  | none, none =>
    if (before.list p).isNone && (after.list p).isSome then IO.FS.createDirAll p.text

/-- The directory for shared regions, unless the command line names one. -/
def usualRegionDir : IO Path := do
  match ← IO.getEnv "ADDRLIB_REGION_DIR" with
  | some dir => return ⟨dir⟩
  | none =>
    if ← isThere ⟨"/dev/shm"⟩ then return ⟨"/dev/shm"⟩
    else return ⟨(← IO.getEnv "TMPDIR").getD "/tmp"⟩

end OffsetAtlas.Program

open OffsetAtlas OffsetAtlas.CommandLine OffsetAtlas.Program

/-- The program; its answer is the exit status. -/
def main (args : List String) : IO UInt32 := do
  let usual ← usualRegionDir
  let mut reach : List Path := []
  let mut disk := Disk.empty
  if let .ok a := parse args then
    let files := a.files.flatMap lineage
    disk ← files.foldlM bring disk
    let sources := a.files.filterMap disk.file?
    let regions := sources.flatMap fun f =>
      (a.regionFiles usual (octets f.contents)).flatMap lineage
    disk ← regions.foldlM bring disk
    reach := (files ++ regions).eraseDups
  let (outcome, host) := run args usual (.ofDisk disk)
  for p in reach do
    bringBack disk host.disk p
  IO.print outcome.output
  IO.eprint outcome.errors
  return outcome.status.toUInt32
