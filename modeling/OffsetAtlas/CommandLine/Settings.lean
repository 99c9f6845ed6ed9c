/-
OffsetAtlas.CommandLine.Settings — the options of each command, and their values.

An option is a switch or a parameter with a value. `Settings` holds what has been given at one
level of the command line: in front of the command, or behind it. A level takes an option once, and
a value is read when it is put there.
-/
import OffsetAtlas.CommandLine.Arguments
import OffsetAtlas.CommandLine.Number

namespace OffsetAtlas.CommandLine

open Text

/-! ## Options -/

/-- An option without a value. -/
inductive Switch where
  | help
  | version
  | isPrivate
  | noDenylist
  | quiet
  | packed
  | json
  deriving DecidableEq, Repr

/-- An option with a value. -/
inductive Parameter where
  | regionDir
  | version
  | plugin
  | loader
  | dir
  | file
  | base
  | build
  | output
  | format
  | name
  | pointerSize
  deriving DecidableEq, Repr

/-- An option. -/
inductive Opt where
  | switch (s : Switch)
  | parameter (p : Parameter)
  deriving DecidableEq, Repr

/-- How an option is written behind two dashes. -/
def Opt.long : Opt → String
  | .switch .help => "help"
  | .switch .version => "version"
  | .switch .isPrivate => "private"
  | .switch .noDenylist => "no-denylist"
  | .switch .quiet => "quiet"
  | .switch .packed => "legacy"
  | .switch .json => "json"
  | .parameter .regionDir => "region-dir"
  | .parameter .version => "game-version"
  | .parameter .plugin => "plugin"
  | .parameter .loader => "loader"
  | .parameter .dir => "dir"
  | .parameter .file => "file"
  | .parameter .base => "base"
  | .parameter .build => "runtime"
  | .parameter .output => "output"
  | .parameter .format => "format"
  | .parameter .name => "name"
  | .parameter .pointerSize => "pointer-size"

/-- How an option is written behind one dash, if it can be. -/
def Opt.short? : Opt → Option Char
  | .switch .help => some 'h'
  | .switch .version => some 'V'
  | .switch .quiet => some 'q'
  | .parameter .output => some 'o'
  | _ => none

/-! ## Levels -/

/-- The word that picks a command. -/
inductive Verb where
  | lookup
  | resolve
  | reverse
  | info
  | pack
  deriving DecidableEq, Repr

/-- The word itself. -/
def Verb.word : Verb → String
  | .lookup => "lookup"
  | .resolve => "resolve"
  | .reverse => "reverse"
  | .info => "info"
  | .pack => "pack"

/-- The verb that a word is. -/
def Verb.ofWord? (word : String) : Option Verb :=
  [lookup, resolve, reverse, info, pack].find? (·.word = word)

/-- The word that asks for help; it stands where a verb could. -/
def helpWord : String := "help"

/-- What a word that belongs to no option is. -/
inductive OperandKind where
  | verb
  | number
  | idSet
  | input
  | nothing
  deriving DecidableEq, Repr

/-- A part of the command line with options of its own. -/
inductive Level where
  | top
  | command (verb : Verb)
  deriving DecidableEq, Repr

/-- The options that every level has. -/
def sharedOptions : List Opt :=
  [.switch .help, .switch .isPrivate, .switch .noDenylist, .switch .quiet, .parameter .regionDir]

/-- The options that tell a database. -/
def sourceOptions : List Opt :=
  [.parameter .version, .parameter .plugin, .parameter .loader, .parameter .dir, .parameter .file,
    .switch .packed]

namespace Level

/-- The options that a level has besides the shared ones. -/
def ownOptions : Level → List Opt
  | .top => [.switch .version]
  | .command .lookup | .command .reverse => sourceOptions
  | .command .resolve => sourceOptions ++ [.parameter .base, .parameter .build]
  | .command .info => sourceOptions ++ [.switch .json]
  | .command .pack =>
    [.parameter .output, .parameter .version, .parameter .format, .parameter .name,
      .parameter .pointerSize]

/-- The options of a level. -/
def options (level : Level) : List Opt :=
  sharedOptions ++ level.ownOptions

/-- What a word that belongs to no option is at a level. -/
def operands : Level → OperandKind
  | .top => .verb
  | .command .lookup | .command .reverse => .number
  | .command .resolve => .idSet
  | .command .info => .nothing
  | .command .pack => .input

/-- The option behind two dashes. -/
def long? (level : Level) (name : String) : Option Opt :=
  level.options.find? (·.long = name)

/-- The option behind one dash. -/
def short? (level : Level) (letter : Char) : Option Opt :=
  level.options.find? (·.short? = some letter)

end Level

/-! ## Values -/

/-- A path; an empty one is none. -/
def readPath (text : String) : Except Usage Path :=
  if text = "" then .error .invalidValue else .ok ⟨text⟩

/-- A layout by its name. -/
def readFormat (text : String) : Except Usage PackFormat :=
  if text = "legacy" then .ok .packed
  else if text = "delta" then .ok .delta
  else if text = "dense" then .ok .dense
  else .error .invalidValue

/-- A value as a parser answers it. -/
def readable {ε α : Type} (x : Except ε α) : Except Usage α :=
  x.mapError fun _ => .unreadableValue

/-- A pointer size: a number of 32 bits, and zero may have a minus sign. -/
def readPointerSize (text : String) : Except Usage UInt32 :=
  match text.toList with
  | '-' :: digit :: digits =>
    match Numeral.readDigits 10 1 0 (digit :: digits) with
    | .ok _ => .ok 0
    | .error _ => .error .unreadableValue
  | cs => (readable (Numeral.read 10 UInt32.size cs)).map UInt32.ofNat

/-! ## Settings -/

/-- What has been given at a level. -/
structure Settings where
  switches : List Switch
  regionDir : Option Path
  version : Option Version
  plugin : Option Path
  loader : Option Loader
  dir : Option Path
  file : Option Path
  base : Option UInt64
  build : Option Nat
  output : Option Path
  format : Option PackFormat
  name : Option String
  pointerSize : Option UInt32
  numbers : List UInt64
  idSets : List (List UInt64)
  input : Option Path
  deriving DecidableEq, Repr

namespace Settings

/-- Nothing given. -/
def empty : Settings where
  switches := []
  regionDir := none
  version := none
  plugin := none
  loader := none
  dir := none
  file := none
  base := none
  build := none
  output := none
  format := none
  name := none
  pointerSize := none
  numbers := []
  idSets := []
  input := none

/-- Whether a switch is given. -/
def isOn (s : Settings) (switch : Switch) : Bool :=
  switch ∈ s.switches

/-- Whether a parameter is given. -/
def has (s : Settings) : Parameter → Bool
  | .regionDir => s.regionDir.isSome
  | .version => s.version.isSome
  | .plugin => s.plugin.isSome
  | .loader => s.loader.isSome
  | .dir => s.dir.isSome
  | .file => s.file.isSome
  | .base => s.base.isSome
  | .build => s.build.isSome
  | .output => s.output.isSome
  | .format => s.format.isSome
  | .name => s.name.isSome
  | .pointerSize => s.pointerSize.isSome

/-- The settings with one more switch. -/
def turnOn (s : Settings) (switch : Switch) : Except Usage Settings :=
  match switch with
  | .help => .error .helpWanted
  | .version => .error .versionWanted
  | switch =>
    if s.isOn switch then .error .conflict
    else .ok { s with switches := switch :: s.switches }

/-- The settings with a parameter's value in place of what it was. -/
def read (s : Settings) (parameter : Parameter) (text : String) : Except Usage Settings :=
  match parameter with
  | .regionDir => (readPath text).map fun v => { s with regionDir := v }
  | .version => (readable (Version.parse text)).map fun v => { s with version := v }
  | .plugin => (readPath text).map fun v => { s with plugin := v }
  | .loader => (readable (Loader.parse text)).map fun v => { s with loader := v }
  | .dir => (readPath text).map fun v => { s with dir := v }
  | .file => (readPath text).map fun v => { s with file := v }
  | .base => (readable (parseNumber text.toList)).map fun v => { s with base := v }
  | .build =>
    (readable (Numeral.read 10 UInt64.size text.toList)).map fun v => { s with build := v }
  | .output => (readPath text).map fun v => { s with output := v }
  | .format => (readFormat text).map fun v => { s with format := v }
  | .name => .ok { s with name := text }
  | .pointerSize => (readPointerSize text).map fun v => { s with pointerSize := v }

/-- The settings with one more parameter. -/
def set (s : Settings) (parameter : Parameter) (text : String) : Except Usage Settings :=
  if s.has parameter then .error .conflict else s.read parameter text

/-- The settings with more operands. -/
def addOperands (s : Settings) (kind : OperandKind) (texts : List String) : Except Usage Settings :=
  match kind, texts with
  | .number, texts =>
    (readable (texts.mapM fun t => parseNumber t.toList)).map fun ns =>
      { s with numbers := s.numbers ++ ns }
  | .idSet, texts =>
    (readable (texts.mapM fun t => parseIdSet t.toList)).map fun sets =>
      { s with idSets := s.idSets ++ sets }
  | .input, text :: _ => (readPath text).map fun v => { s with input := v }
  | _, _ => .ok s

/-- Whether no two options exclude each other: a file is not looked for, and what is private has no
directory. -/
def isConsistent (s : Settings) : Bool :=
  !(s.file.isSome && (s.plugin.isSome || s.dir.isSome))
    && !(s.regionDir.isSome && s.isOn .isPrivate)

/-- The settings, if they agree with each other. -/
def consistent (s : Settings) : Except Usage Settings :=
  if s.isConsistent then .ok s else .error .conflict

/-! ## Commands -/

/-- What a command needs. -/
def needed {α : Type} : Option α → Except Usage α
  | some a => .ok a
  | none => .error .missingArgument

/-- Operands that a command needs one of. -/
def neededList {α : Type} (as : List α) : Except Usage (List α) :=
  if as.isEmpty then .error .missingArgument else .ok as

/-- The database meant. To call a file packed there has to be one, unless looking for it excludes
naming it. -/
def source (s : Settings) : Except Usage SourceArguments := do
  let version ← needed s.version
  if s.isOn .packed ∧ s.file.isNone ∧ s.plugin.isNone ∧ s.dir.isNone then .error .missingArgument
  else .ok ⟨version, s.plugin, s.loader, s.dir, s.file, s.isOn .packed⟩

/-- The layout and the header for packing. -/
def packOptions (s : Settings) : Except Usage PackOptions := do
  let version ← needed s.version
  .ok ⟨s.format.getD .delta, version, s.name.getD "", s.pointerSize.getD 8⟩

/-- The command that a verb and its settings make. -/
def command (s : Settings) : Verb → Except Usage Command
  | .lookup => do .ok (.query (← s.source) (.lookup (← neededList s.numbers)))
  | .resolve => do
    .ok (.query (← s.source) (.resolve (s.base.getD 0) (s.build.getD 0) (← neededList s.idSets)))
  | .reverse => do .ok (.query (← s.source) (.reverse (← neededList s.numbers)))
  | .info => do .ok (.query (← s.source) (.info (s.isOn .json)))
  | .pack => do .ok (.pack (← needed s.input) (← needed s.output) (← s.packOptions))

end Settings

end OffsetAtlas.CommandLine
