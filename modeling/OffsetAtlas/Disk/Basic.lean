/-
OffsetAtlas.Disk.Basic — the files and directories that the library works on.

A disk maps places, which are lists of names below one root directory, to directories and files, and
one of its directories is the current one, where paths without a leading slash start. A file has an
identity that it keeps for life, also under a new name, so that one can ask whether a path still
names the file that was opened.
-/
import OffsetAtlas.Failure

namespace OffsetAtlas

/-- The identity of a file. -/
structure FileId where
  index : Nat
  deriving DecidableEq, Repr

/-- A file: its identity and its bytes, which are not worked out before somebody reads them. -/
structure File where
  id : FileId
  block : Thunk ByteArray

/-- The bytes of a file. -/
def File.contents (f : File) : ByteArray :=
  f.block.get

/-- What a place holds. -/
inductive Node where
  | directory
  | file (file : File)

/-- Whether a node is a file. -/
def Node.isFile : Node → Bool
  | .directory => false
  | .file _ => true

/-- The names that lead from the root directory to a place. -/
abbrev Place := List String

/-- What a directory takes on the disk, in bytes, when it is looked at as a file. -/
def directorySize : Nat := 4096

/-- The longest name a directory takes, in bytes. -/
def longestName : Nat := 255

/-- The longest path that can be walked, in bytes. -/
def longestPath : Nat := 4095

/-- What lies below the root directory, the current directory, and the next identity to give
away. -/
structure Disk where
  nodes : List (Place × Node)
  home : Place
  nextId : Nat

namespace Disk

/-- A disk with nothing on it but the current directory. -/
def empty : Disk := ⟨[(["home"], .directory)], ["home"], 0⟩

/-- What a place holds; the root is a directory. -/
def node? (d : Disk) (place : Place) : Option Node :=
  if place = [] then some .directory else d.nodes.lookup place

/-- Puts a node at a place. -/
def put (d : Disk) (place : Place) (node : Node) : Disk :=
  { d with nodes := (place, node) :: d.nodes.filter (·.1 ≠ place) }

/-- Takes away what is at a place. -/
def erase (d : Disk) (place : Place) : Disk :=
  { d with nodes := d.nodes.filter (·.1 ≠ place) }

/-- Puts a new file at a place. -/
def putNew (d : Disk) (place : Place) (contents : ByteArray) : FileId × Disk :=
  let id : FileId := ⟨d.nextId⟩
  (id, { d.put place (.file ⟨id, contents⟩) with nextId := d.nextId + 1 })

/-- Writes into the file at a place, which stays the same file. -/
def write (d : Disk) (place : Place) (block : Thunk ByteArray) : Disk :=
  match d.node? place with
  | some (.file f) => d.put place (.file { f with block })
  | _ => d

end Disk

end OffsetAtlas
