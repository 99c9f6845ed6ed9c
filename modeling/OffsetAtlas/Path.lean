/-
OffsetAtlas.Path — file paths as they are given.

A path keeps its text; nothing makes it absolute or tidies it. Its parts are what stands between
slashes, of which empty ones and single dots say nothing, except that a path may start with a
slash (its root) or with a dot. `parent?` cuts the text before the last part, `ancestors` does so
again and again, `fileName?` is the last part, and `join` puts a name below a directory.
-/
import OffsetAtlas.Text.WhiteSpace

namespace OffsetAtlas

open Text

/-- A path, slash-separated, as given. -/
structure Path where
  text : String
  deriving DecidableEq, Repr, Inhabited

namespace Path

/-- A part that names nothing: an empty one or a single dot. -/
def isIdle (part : List Char) : Bool :=
  part = [] || part = ['.']

/-- Drops the parts at the end that name nothing. -/
def dropIdle (parts : List (List Char)) : List (List Char) :=
  (parts.reverse.dropWhile isIdle).reverse

/-- Splits off the root or the leading dot, which no cut takes away. -/
def anchor : List Char → List Char × List Char
  | '/' :: cs => (['/'], cs)
  | ['.'] => (['.'], [])
  | '.' :: '/' :: cs => (['.'], '/' :: cs)
  | cs => ([], cs)

/-- The parts behind the anchor, up to the last that names something. -/
def parts (p : Path) : List (List Char) :=
  dropIdle (split '/' (anchor p.text.toList).2)

/-- The path without its last part; a root and an empty path have no parent. -/
def parent? (p : Path) : Option Path :=
  let lead := (anchor p.text.toList).1
  match p.parts.reverse with
  | [] => if lead = ['.'] then some ⟨""⟩ else none
  | _ :: before =>
    some ⟨String.ofList (lead ++ ['/'].intercalate (dropIdle before.reverse))⟩

/-- The paths that end in one of these parts, which stand in reverse, and then the anchor. -/
def prefixes (lead : List Char) : List (List Char) → List Path
  | [] => if lead = [] then [] else [⟨String.ofList lead⟩]
  | part :: before =>
    if isIdle part then prefixes lead before
    else ⟨String.ofList (lead ++ ['/'].intercalate (part :: before).reverse)⟩
      :: prefixes lead before

/-- The path as it is and then those above it, the nearest first; none of them is empty. -/
def ancestors (p : Path) : List Path :=
  if p.text = "" then [] else p :: (prefixes (anchor p.text.toList).1 p.parts.reverse).drop 1

/-- The last part, unless it leads upwards. -/
def fileName? (p : Path) : Option String :=
  match p.parts.getLast? with
  | none => none
  | some part => if part = ['.', '.'] then none else some (String.ofList part)

/-- What follows the last dot of the file name, unless the name starts with that dot. -/
def extension? (p : Path) : Option String :=
  match p.fileName? with
  | none => none
  | some name =>
    match (split '.' name.toList).reverse with
    | [] => none
    | [_] => none
    | [_, []] => none
    | last :: _ => some (String.ofList last)

/-- A name below a directory; an absolute name stands for itself. -/
def join (dir : Path) (name : String) : Path :=
  if name.startsWith "/" then ⟨name⟩
  else if dir.text.isEmpty || dir.text.endsWith "/" then ⟨dir.text ++ name⟩
  else ⟨dir.text ++ "/" ++ name⟩

end Path

end OffsetAtlas
