/-
OffsetAtlas.CommandLine.Run — what a command line does and prints.

A command prints its lines in order until one of its answers fails; what is printed before stays
printed. The status tells bad data from other failures. A database that was opened is let go of at
the end, whatever came of the question.
-/
import OffsetAtlas.CommandLine.Parse
import OffsetAtlas.CommandLine.Source
import OffsetAtlas.Identifier

namespace OffsetAtlas.CommandLine

open Text.Numeral (decimal hex)

/-! ## Outcomes -/

/-- What a program leaves behind when it ends. -/
structure Outcome where
  /-- The exit status. -/
  status : UInt8
  /-- What it has printed. -/
  output : String
  /-- What it has printed about errors. -/
  errors : String
  deriving DecidableEq, Repr

/-- The exit status for a failure: 65 if the data are to blame, else 1. -/
def exitStatus (e : Failure) : UInt8 :=
  match e.kind with
  | .malformed | .versionMismatch | .unsupportedFormat | .integrity => 65
  | .discovery | .lookupMiss | .disk => 1

/-- Lines, each with its end. -/
def unlines (lines : List String) : String :=
  String.join (lines.map (· ++ "\n"))

/-- The lines in front of the first answer that fails, and that failure. -/
def untilFailure : List (Except Failure String) → List String × Option Failure
  | [] => ([], none)
  | .error e :: _ => ([], some e)
  | .ok line :: rest =>
    let (lines, e) := untilFailure rest
    (line :: lines, e)

namespace Outcome

/-- The outcome of a command that succeeds. -/
def success (lines : List String) : Outcome :=
  ⟨0, unlines lines, ""⟩

/-- The outcome of a command that fails after some lines; `context` says what failed. -/
def failure (lines context : List String) (e : Failure) : Outcome :=
  ⟨exitStatus e, unlines lines, "error: " ++ ": ".intercalate (context ++ e.chain) ++ "\n"⟩

/-- The outcome of printing answers up to the first that fails. -/
def ofAnswers (answers : List (Except Failure String)) : Outcome :=
  match untilFailure answers with
  | (lines, none) => success lines
  | (lines, some e) => failure lines [] e

/-- The program's name and version. -/
def versionLine : String := "addrlib 0.3.0"

/-- How the program is used. -/
def helpLines : List String :=
  ["Usage: addrlib [GLOBAL] COMMAND", "",
    "  lookup SOURCE ID...                  offsets of identifiers",
    "  resolve SOURCE [--base N] [--runtime N] ID,ID...",
    "                                       addresses of sets of identifiers",
    "  reverse SOURCE OFFSET...             identifiers at or below offsets",
    "  info SOURCE [--json]                 summary of a database",
    "  pack INPUT -o OUTPUT --game-version V [--format legacy|delta|dense] [--name S]",
    "       [--pointer-size N]              binary database from rows of text", "",
    "SOURCE: --game-version V [--plugin PATH] [--loader L] [--dir DIR] [--file FILE [--legacy]]",
    "GLOBAL: [--region-dir DIR | --private] [--no-denylist] [-q]"]

/-- The outcome of a command line that is not followed. -/
def ofUsage : Usage → Outcome
  | .helpWanted => success helpLines
  | .versionWanted => success [versionLine]
  | .nothingGiven => ⟨2, "", unlines helpLines⟩
  | usage => ⟨2, "", "error: " ++ usage.message ++ "\n"⟩

end Outcome

/-! ## Questions -/

/-- Some identifiers between brackets. -/
def bracketed (ids : List UInt64) : String :=
  "[" ++ ", ".intercalate (ids.map fun id => decimal id.toNat) ++ "]"

/-- The line for an address, which without `quiet` tells how it was found. -/
def addressLine (quiet : Bool) (slots : List UInt64) (build : Nat) (address : UInt64) : String :=
  let text := "0x" ++ hex address.toNat
  if quiet then text
  else bracketed slots ++ "[" ++ decimal build ++ "] -> "
    ++ decimal (resolveSlots slots build).toNat ++ " -> " ++ text

/-- The line for what lies at or below an offset. -/
def reverseLine (index : OffsetIndex) (offset : UInt64) : String :=
  "0x" ++ hex offset.toNat ++ "\t" ++ match index.containing offset with
    | none => "-"
    | some (id, distance) =>
      decimal id.toNat ++ (if distance = 0 then "" else "+0x" ++ hex distance.toNat)

/-- The lines that answer a question, for a module of some version. -/
def Query.answers (db : Database) (version : Version) (quiet : Bool) :
    Query → List (Except Failure String)
  | .lookup ids =>
    ids.map fun id => (db.offset id).map fun o => decimal id.toNat ++ "\t0x" ++ hex o.toNat
  | .resolve base build sets =>
    let context := (AddressContext.of db ⟨base, version⟩).withRuntime (.fixed build)
    sets.map fun slots =>
      ((Identifier.simple (resolveSlots slots build)).address context).map
        (addressLine quiet slots build)
  | .reverse offsets =>
    let index := db.offsetIndex
    offsets.map fun o => .ok (reverseLine index o)
  | .info true => [.ok db.summary.json.pretty]
  | .info false => db.summary.lines.map .ok

/-! ## Commands -/

/-- Answers a question about a database and lets go of it. -/
def runQuery (a : Arguments) (usual : Path) (source : SourceArguments) (query : Query) (h : Host) :
    Outcome × Host :=
  let denylist := if a.noDenylist then .empty else .builtin
  let config := source.config (regionLocation usual a.regionDir a.isPrivate) denylist
  match source.openDatabase config h with
  | (.error e, h) => (.failure [] [] e, h)
  | (.ok db, h) => (.ofAnswers (query.answers db source.version a.quiet), db.release h)

/-- Packs a file of rows. -/
def runPack (quiet : Bool) (input output : Path) (o : PackOptions) (h : Host) : Outcome × Host :=
  match Packing.packCsv input output o h with
  | (.error e, h) => (.failure [] ["Failed to pack " ++ input.text] e, h)
  | (.ok n, h) =>
    (.success (if quiet then [] else [decimal n ++ " entries written to " ++ output.text]), h)

/-- Follows a command line; shared regions are usually kept in `usual`. -/
def run (words : List String) (usual : Path) (h : Host) : Outcome × Host :=
  match parse words with
  | .error usage => (.ofUsage usage, h)
  | .ok a =>
    match a.command with
    | .query source query => runQuery a usual source query h
    | .pack input output options => runPack a.quiet input output options h

end OffsetAtlas.CommandLine
