/-
OffsetAtlas.Disk.Walk — from paths to places.

`resolve` walks a path to its place; every step of the walk has to start in a directory, and `find`
also looks at what is there. What makes or moves things looks at the end of a path apart from the
rest (`ending`), because slashes and dots there mean something of their own.
-/
import OffsetAtlas.Disk.Basic

namespace OffsetAtlas

open Text

namespace Disk

/-! ## Walking -/

/-- The steps of a path: its parts in order, empty ones included. -/
def steps (p : Path) : List String :=
  (split '/' p.text.toList).map String.ofList

/-- Whether a path holds a NUL. -/
def hasNul (p : Path) : Bool :=
  p.text.toList.contains '\x00'

/-- Whether a path can be walked at all. -/
def walkable (p : Path) : Except DiskFault Unit :=
  if hasNul p then .error .nulInPath
  else if p.text = "" then .error .notFound
  else if longestPath < p.text.utf8ByteSize then .error .nameTooLong
  else .ok ()

/-- Where the walk along a path starts. -/
def origin (d : Disk) (p : Path) : Place :=
  if p.text.startsWith "/" then [] else d.home

/-- Walks on from a place. A step up from the root stays there. -/
def walk (d : Disk) : Place → List String → Except DiskFault Place
  | place, [] => .ok place
  | place, step :: rest =>
    match d.node? place with
    | none => .error .notFound
    | some (.file _) => .error .notADirectory
    | some .directory =>
      if step = "" ∨ step = "." then walk d place rest
      else if step = ".." then walk d place.dropLast rest
      else if longestName < step.utf8ByteSize then .error .nameTooLong
      else walk d (place ++ [step]) rest

/-- The place that a path names; there need not be anything. -/
def resolve (d : Disk) (p : Path) : Except DiskFault Place :=
  match walkable p with
  | .error e => .error e
  | .ok () => d.walk (d.origin p) (steps p)

/-- The place and what it holds. -/
def find (d : Disk) (p : Path) : Except DiskFault (Place × Node) :=
  match d.resolve p with
  | .error e => .error e
  | .ok place =>
    match d.node? place with
    | none => .error .notFound
    | some node => .ok (place, node)

/-- Whether a path names a file. -/
def isFile (d : Disk) (p : Path) : Bool :=
  match d.find p with
  | .ok (_, .file _) => true
  | _ => false

/-- Whether a path names a directory. -/
def isDirectory (d : Disk) (p : Path) : Bool :=
  match d.find p with
  | .ok (_, .directory) => true
  | _ => false

/-- The file that a path names. -/
def file? (d : Disk) (p : Path) : Option File :=
  match d.find p with
  | .ok (_, .file f) => some f
  | _ => none

/-- The names in a directory, in order. -/
def list (d : Disk) (p : Path) : Option (List String) :=
  match d.find p with
  | .ok (place, .directory) =>
    let names := d.nodes.filterMap fun n =>
      if n.1 ≠ [] ∧ n.1.dropLast = place then n.1.getLast? else none
    some (names.mergeSort fun a b => decide (a ≤ b))
  | _ => none

/-! ## The ends of paths -/

/-- How a path ends. -/
inductive Ending where
  /-- In dots, or it is the root: it names a directory that is there. -/
  | dots (place : Place)
  /-- In a name, in a directory that is there; slashes may follow the name. -/
  | name (dir : Place) (name : String) (slashes : Bool)

/-- The end of a path. What stands before it has to be a directory. -/
def ending (d : Disk) (p : Path) : Except DiskFault Ending := do
  walkable p
  match (steps p).reverse.dropWhile (· = "") with
  | [] => return .dots []
  | last :: before =>
    if last = "." ∨ last = ".." then
      return .dots (← d.walk (d.origin p) (before.reverse ++ [last]))
    else
      return .name (← d.walk (d.origin p) (before.reverse ++ ["."])) last (p.text.endsWith "/")

/-- The place of a name in a directory, and what is there. -/
def entry (d : Disk) (dir : Place) (name : String) : Except DiskFault (Place × Option Node) :=
  if longestName < name.utf8ByteSize then .error .nameTooLong
  else .ok (dir ++ [name], d.node? (dir ++ [name]))

/-- The place where a path would make a file, and what is there now. A file's name has no slash
behind it. -/
def target (d : Disk) (p : Path) : Except DiskFault (Place × Option Node) := do
  match ← d.ending p with
  | .dots place => return (place, some .directory)
  | .name _ _ true => throw .isADirectory
  | .name dir name false => d.entry dir name

end Disk

end OffsetAtlas
