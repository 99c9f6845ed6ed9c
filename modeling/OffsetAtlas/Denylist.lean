/-
OffsetAtlas.Denylist — databases that are known to be wrong.

A wrong database is known by its loader, its version and the digest of its table. A table is only
digested when the list has something to say about its loader and version.
-/
import OffsetAtlas.Digest.Sha512
import OffsetAtlas.Failure
import OffsetAtlas.Notice

namespace OffsetAtlas

/-- One wrong database. -/
structure Denial where
  loader : Loader
  version : Version
  /-- The digest of the table, in upper-case hexadecimal. -/
  digest : String
  deriving DecidableEq, Repr

/-- The wrong databases, in the order in which they were added. -/
structure Denylist where
  denials : List Denial
  deriving DecidableEq, Repr

namespace Denylist

/-- A list with nothing on it. -/
def empty : Denylist := ⟨[]⟩

/-- One more wrong database; its digest may be in letters of either case. -/
def add (d : Denylist) (loader : Loader) (version : Version) (digest : String) : Denylist :=
  ⟨d.denials ++ [⟨loader, version, digest.map Char.toUpper⟩]⟩

/-- The wrong databases that are known to everyone. -/
def builtin : Denylist :=
  empty
    |>.add .f4se ⟨1, 10, 980, 0⟩
      ("2AD60B95388F1B6E77A6F86F17BEB51D043CF95A341E91ECB2E911A393E45FE8"
        ++ "156D585D2562F7B14434483D6E6652E2373B91589013507CABAE596C26A343F1")
    |>.add .f4se ⟨1, 11, 159, 0⟩
      ("686D40387F638ED75AD43BB76CA14170576F1A30E91144F280987D13A3012B1C"
        ++ "A6A4E04E6BE7A5B99E46C50332C49BE40C3D9448038E17D3D31C40E72A90AE26")

/-- What the list says about a loader and a version. -/
def matching (d : Denylist) (loader : Loader) (version : Version) : List Denial :=
  d.denials.filter fun denial => denial.loader = loader ∧ denial.version = version

/-- Refuses a table on the list, and a table without bytes if the list would have to be asked; and
what there is to say about it. -/
def check (d : Denylist) (loader : Loader) (version : Version) (table : ByteArray) (path : Path) :
    Except Failure Unit × List Notice :=
  match d.matching loader version with
  | [] => (.ok (), [])
  | denials =>
    if table.size = 0 then (.error (.notHashable path), [])
    else
      let digest := Digest.sha512Hex table.data.toList
      if denials.any (·.digest = digest) then
        (.error (.denylisted version),
          [.error ("Denylisted Address Library for " ++ loader.name ++ " " ++ version.display
            ++ ": " ++ path.text)])
      else (.ok (), [.debug ("Address Library digest " ++ digest ++ " is not denylisted")])

end Denylist

end OffsetAtlas
