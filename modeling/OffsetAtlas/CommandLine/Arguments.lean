/-
OffsetAtlas.CommandLine.Arguments — what a command line asks for.

Either a question about one database, or a file of rows to be packed. `Usage` is why a command line
asks for nothing that can be done.
-/
import OffsetAtlas.Packing

namespace OffsetAtlas.CommandLine

/-- Which database is meant. -/
structure SourceArguments where
  /-- The version that the database has to be for. -/
  version : Version
  plugin : Option Path
  loader : Option Loader
  /-- The directory to look in. -/
  dir : Option Path
  /-- The file to load, without looking for any. -/
  file : Option Path
  /-- Whether the file is a packed one, which nothing in it tells. -/
  isPacked : Bool
  deriving DecidableEq, Repr

/-- A question about a database. -/
inductive Query where
  /-- The offset of each identifier. -/
  | lookup (ids : List UInt64)
  /-- The address of each set of identifiers, for a module at `base` and a build. -/
  | resolve (base : UInt64) (build : Nat) (ids : List (List UInt64))
  /-- The identifier at or below each offset. -/
  | reverse (offsets : List UInt64)
  /-- The summary, as lines or as JSON. -/
  | info (json : Bool)
  deriving DecidableEq, Repr

/-- Something to be done. -/
inductive Command where
  | query (source : SourceArguments) (query : Query)
  | pack (input output : Path) (options : PackOptions)
  deriving DecidableEq, Repr

/-- A command, and what holds for every command. -/
structure Arguments where
  command : Command
  /-- The directory for shared regions. -/
  regionDir : Option Path
  /-- Whether tables are kept in memory of one's own. -/
  isPrivate : Bool
  /-- Whether databases known to be bad are taken, too. -/
  noDenylist : Bool
  /-- Whether to print as little as possible. -/
  quiet : Bool
  deriving DecidableEq, Repr

/-- Why a command line is not followed. -/
inductive Usage where
  /-- Something that the command needs is not given. -/
  | missingArgument
  /-- An option that is not known here, or a word too many. -/
  | unknownArgument
  /-- A value that cannot be read. -/
  | unreadableValue
  /-- No value, an empty path, or none of the words to choose from. -/
  | invalidValue
  /-- Options that exclude each other, or one that is given twice. -/
  | conflict
  /-- A value for an option that takes none. -/
  | surplusValue
  /-- A first word that is no command. -/
  | unknownCommand
  /-- Options without a command. -/
  | missingCommand
  /-- Nothing at all. -/
  | nothingGiven
  /-- A wish to be told how the program is used. -/
  | helpWanted
  /-- A wish to be told the program's version. -/
  | versionWanted
  deriving DecidableEq, Repr

/-- Why, in words. -/
def Usage.message : Usage → String
  | .missingArgument => "the command needs more than it is given"
  | .unknownArgument => "an argument is not known here"
  | .unreadableValue => "a value cannot be read"
  | .invalidValue => "a value is missing or none of those allowed"
  | .conflict => "options exclude each other, or one is given twice"
  | .surplusValue => "an option takes no value"
  | .unknownCommand => "there is no such command"
  | .missingCommand => "there is no command"
  | .nothingGiven => "nothing is given"
  | .helpWanted => "help is wanted"
  | .versionWanted => "the version is wanted"

end OffsetAtlas.CommandLine
