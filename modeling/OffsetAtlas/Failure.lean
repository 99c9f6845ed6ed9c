/-
OffsetAtlas.Failure — everything that can go wrong, by cause.

Each cause carries what its message names. `Failure.kind` sorts the causes coarsely, which decides
the exit status of the command line; `Failure.message` words them and `Failure.chain` adds the
cause behind a cause.
-/
import OffsetAtlas.Loader
import OffsetAtlas.Path

namespace OffsetAtlas

open Text.Numeral (decimal hex)

/-! ## Faults of the file system -/

/-- Why the file system refuses an operation. -/
inductive DiskFault where
  | notFound
  | busy
  | alreadyExists
  | notMappable
  | notADirectory
  | isADirectory
  | notAllowed
  | noSpace
  | nameTooLong
  | notEmpty
  /-- The path cannot even be handed to the system, which ends paths at a NUL. -/
  | nulInPath
  deriving DecidableEq, Repr

/-- The system's wording, with the number it has for the fault. -/
def DiskFault.message : DiskFault → String
  | .notFound => "No such file or directory (os error 2)"
  | .busy => "Device or resource busy (os error 16)"
  | .alreadyExists => "File exists (os error 17)"
  | .notMappable => "No such device (os error 19)"
  | .notADirectory => "Not a directory (os error 20)"
  | .isADirectory => "Is a directory (os error 21)"
  | .notAllowed => "Invalid argument (os error 22)"
  | .noSpace => "No space left on device (os error 28)"
  | .nameTooLong => "File name too long (os error 36)"
  | .notEmpty => "Directory not empty (os error 39)"
  | .nulInPath => "file name contained an unexpected NUL byte"

/-! ## Faults of a header -/

/-- The longest name a header can hold, in bytes. -/
def maxNameLength : Nat := 63

/-- Counts in a header are below this: they are stored as signed words of 32 bits. -/
def countLimit : Nat := UInt32.size / 2

/-- Why a header cannot be read or written. -/
inductive HeaderFault where
  /-- A count is stored as a negative number. -/
  | negative (what : String) (value : Int)
  /-- The stored length of the name is above `maxNameLength`. -/
  | nameLength (length : Nat)
  /-- A record is scaled by a pointer size of zero. -/
  | unscalable (record : Nat)
  /-- A table of so many items does not fit the address space. -/
  | countTooLarge (what : String) (count : Nat)
  /-- A name is longer than a header can hold. -/
  | nameTooLong (name : String)
  /-- A pointer size is above what the header can hold. -/
  | pointerSizeTooLarge (size : Nat)
  /-- There are more entries than the header can count. -/
  | tooManyEntries (count : Nat)
  /-- An identifier would need a table longer than the header can count. -/
  | idTooLarge (id : UInt64)
  /-- An offset is zero or does not fit a slot. -/
  | offsetNotStorable (offset id : UInt64)
  deriving DecidableEq, Repr

/-- The fault in words. -/
def HeaderFault.message : HeaderFault → String
  | .negative what value => "negative " ++ what ++ ": -" ++ decimal value.natAbs
  | .nameLength length =>
    "name length " ++ decimal length ++ " exceeds " ++ decimal maxNameLength
  | .unscalable record =>
    "record " ++ decimal record ++ " is pointer-scaled but the pointer size is 0"
  | .countTooLarge what count => what ++ " " ++ decimal count ++ " is too large"
  | .nameTooLong name =>
    "name '" ++ name ++ "' is longer than " ++ decimal maxNameLength ++ " bytes"
  | .pointerSizeTooLarge size =>
    "pointer size " ++ decimal size ++ " does not fit the header"
  | .tooManyEntries count => decimal count ++ " entries do not fit the header"
  | .idTooLarge id => "identifier " ++ decimal id.toNat ++ " is too large for a dense table"
  | .offsetNotStorable offset id =>
    "offset 0x" ++ hex offset.toNat ++ " of identifier " ++ decimal id.toNat
      ++ " cannot be stored in a dense table"

/-! ## Failures -/

/-- Why a request has no answer. -/
inductive Failure where
  /-- No loader was named and the plugin's place does not tell one. -/
  | loaderUndetermined (plugin : Path)
  /-- None of the files looked for exists. -/
  | databaseNotFound (loader : Loader) (searched : List Path)
  /-- The tag in front of a file is no known one. -/
  | unsupportedFormat (tag : UInt32)
  /-- A file, or a table, belongs to another version. -/
  | versionMismatch (expected actual : Version)
  /-- The table's digest is denylisted. -/
  | denylisted (version : Version)
  /-- A digest is asked for and there is nothing to digest. -/
  | notHashable (path : Path)
  /-- There is no database, or it holds no entry at all. -/
  | notLoaded
  /-- The identifier has no offset. -/
  | idNotFound (id : UInt64) (version : Version)
  /-- A record's control byte asks for an encoding that does not exist. -/
  | unhandledControl (control : UInt8) (record : Nat)
  /-- A header, or something that depends on it, makes no sense. -/
  | malformedHeader (fault : HeaderFault)
  /-- The bytes end too early. -/
  | truncated (what : String) (needed available : Nat)
  /-- A table of comma-separated rows has no good row. -/
  | emptyCsv (path : Path)
  /-- The shared region exists with another size. -/
  | regionSizeMismatch (name : String) (expected actual : Nat)
  /-- A file cannot be opened. -/
  | notOpened (path : Path) (fault : DiskFault)
  /-- A text is no version. -/
  | invalidVersion (text : String)
  /-- A text is no loader. -/
  | unknownLoader (text : String)
  /-- The file system refuses an operation on an open file or a directory. -/
  | disk (fault : DiskFault)
  deriving DecidableEq, Repr

/-- A coarse sort of failures. -/
inductive FailureKind where
  | discovery
  | unsupportedFormat
  | versionMismatch
  | integrity
  | lookupMiss
  | malformed
  | disk
  deriving DecidableEq, Repr

namespace Failure

/-- The sort of a failure. -/
def kind : Failure → FailureKind
  | .loaderUndetermined _ | .databaseNotFound _ _ => .discovery
  | .unsupportedFormat _ => .unsupportedFormat
  | .versionMismatch _ _ => .versionMismatch
  | .denylisted _ | .notHashable _ => .integrity
  | .notLoaded | .idNotFound _ _ => .lookupMiss
  | .unhandledControl _ _ | .malformedHeader _ | .truncated _ _ _ | .emptyCsv _
  | .regionSizeMismatch _ _ _ | .invalidVersion _ | .unknownLoader _ => .malformed
  | .notOpened _ _ | .disk _ => .disk

/-- The failure in words. -/
def message : Failure → String
  | .loaderUndetermined plugin =>
    "Failed to determine Address Library loader!\nPlugin: " ++ plugin.text
  | .databaseNotFound loader _ =>
    "Failed to determine Address Library path!\nLoader: " ++ loader.name
  | .unsupportedFormat tag => "Unsupported Address Library format: " ++ decimal tag.toNat
  | .versionMismatch expected actual =>
    "Address Library version mismatch!\nExpected Version: " ++ expected.display
      ++ "\nActual Version: " ++ actual.display
  | .denylisted version =>
    "Invalid Address Library loaded!\n\nRedownload Address Library for your game version."
      ++ "\nGame Version: " ++ version.display
  | .notHashable path => "Failed to hash Address Library file!\nPath: " ++ path.text
  | .notLoaded => "No Address Library has been loaded!"
  | .idNotFound id version =>
    "Failed to find offset for Address Library ID!\nInvalid ID: " ++ decimal id.toNat
      ++ "\nGame Version: " ++ version.display
  | .unhandledControl control record =>
    "Unhandled type while loading Address Library! (control byte 0x"
      ++ Text.Numeral.hexBytes [control] ++ " at record " ++ decimal record ++ ")"
  | .malformedHeader fault => "Malformed Address Library header: " ++ fault.message
  | .truncated what needed available =>
    "Address Library file truncated while reading " ++ what ++ ": needed " ++ decimal needed
      ++ " bytes, " ++ decimal available ++ " available"
  | .emptyCsv path =>
    "No valid mappings found in CSV Address Library file!\nPath: " ++ path.text
  | .regionSizeMismatch name expected actual =>
    "Shared region " ++ name ++ " has size " ++ decimal actual ++ ", expected " ++ decimal expected
  | .notOpened path fault =>
    "Failed to open Address Library file!\nPath: " ++ path.text ++ "\n" ++ fault.message
  | .invalidVersion text => "Invalid version string: " ++ text
  | .unknownLoader text => "Unknown loader: " ++ text
  | .disk fault => fault.message

/-- The failure and the causes behind it, each in words. -/
def chain (failure : Failure) : List String :=
  match failure with
  | .notOpened _ fault => [failure.message, fault.message]
  | _ => [failure.message]

end Failure

/-! ## Spelled versions and loaders -/

/-- The version a text spells. -/
def Version.parse (s : String) : Except Failure Version :=
  match Version.parse? s with
  | some v => .ok v
  | none => .error (.invalidVersion s)

/-- The loader a text names. -/
def Loader.parse (s : String) : Except Failure Loader :=
  match Loader.parse? s with
  | some loader => .ok loader
  | none => .error (.unknownLoader s)

end OffsetAtlas
