/-
OffsetAtlas.CommandLine.Parse — from the words of a command line to what it asks for.

Words are read from the left, first those of the top level up to a verb, then those behind it. An
option waits for its value and operands wait for their end, so a value is judged when the next
option or the end of the words is reached; an unknown option is refused at once, whatever waits.
Behind `--` every word is an operand. The level behind the verb is judged before the top level.
-/
import OffsetAtlas.CommandLine.Settings

namespace OffsetAtlas.CommandLine

open Text

/-! ## Words -/

/-- What a word looks like. -/
inductive Token where
  /-- An option behind two dashes, with what follows the first equals sign. -/
  | long (name : String) (value : Option String)
  /-- The letters behind one dash. -/
  | letters (cs : List Char)
  /-- Two dashes alone. -/
  | separator
  /-- Anything else; so is one dash alone. -/
  | plain
  deriving DecidableEq, Repr

/-- Tells what a word looks like. -/
def Token.ofWord (word : String) : Token :=
  match word.toList with
  | ['-', '-'] => .separator
  | '-' :: '-' :: cs =>
    .long (String.ofList (cs.takeWhile (· ≠ '=')))
      (match cs.dropWhile (· ≠ '=') with
        | [] => none
        | _ :: value => some (String.ofList value))
  | '-' :: c :: cs => .letters (c :: cs)
  | _ => .plain

/-- The value that follows an option's letter in one word. -/
def attachedValue : List Char → Option String
  | [] => none
  | '=' :: cs => some (String.ofList cs)
  | cs => some (String.ofList cs)

/-! ## Reading a level -/

/-- What has been read and not yet judged. -/
inductive Pending where
  | nothing
  /-- An option whose value is still to come. -/
  | awaiting (parameter : Parameter)
  /-- An option with its value. -/
  | valued (parameter : Parameter) (text : String)
  /-- Operands one after the other. -/
  | operands (texts : List String)
  deriving DecidableEq, Repr

/-- How far a level has been read. -/
structure Progress where
  settings : Settings
  pending : Pending
  /-- Whether `--` has been read. -/
  isLiteral : Bool
  deriving DecidableEq, Repr

namespace Progress

/-- Nothing read. -/
def start : Progress :=
  ⟨.empty, .nothing, false⟩

/-- Judges what is pending. -/
def settle (level : Level) (p : Progress) : Except Usage Progress :=
  let settings : Except Usage Settings := match p.pending with
    | .nothing => .ok p.settings
    | .awaiting _ => .error .invalidValue
    | .valued parameter text => p.settings.set parameter text
    | .operands texts => p.settings.addOperands level.operands texts
  settings.map fun settings => { p with settings, pending := .nothing }

/-- Reads an option, with its value if that stands in the same word. -/
def takeOption (level : Level) (p : Progress) (option : Opt) (value : Option String) :
    Except Usage Progress :=
  match option, value with
  | .switch _, some _ => .error .surplusValue
  | .switch switch, none => do
    let p ← p.settle level
    (p.settings.turnOn switch).map fun settings => { p with settings }
  | .parameter parameter, some text => do
    let p ← p.settle level
    (p.settings.set parameter text).map fun settings => { p with settings }
  | .parameter parameter, none => do
    let p ← p.settle level
    .ok { p with pending := .awaiting parameter }

/-- Reads the letters behind one dash: switches, and perhaps a parameter that takes the rest. -/
def takeLetters (level : Level) : Progress → List Char → Except Usage Progress
  | p, [] => .ok p
  | p, c :: cs =>
    match level.short? c with
    | none => .error .unknownArgument
    | some (.switch switch) => do takeLetters level (← p.takeOption level (.switch switch) none) cs
    | some (.parameter parameter) => p.takeOption level (.parameter parameter) (attachedValue cs)

/-- Whether the one input of a command has been read. -/
def hasInput (p : Progress) : Bool :=
  p.settings.input.isSome || match p.pending with
    | .operands _ => true
    | _ => false

/-- Reads an operand. -/
def takeOperand (level : Level) (p : Progress) (text : String) : Except Usage Progress :=
  match level.operands with
  | .verb =>
    if p.isLiteral ∧ (text = helpWord ∨ (Verb.ofWord? text).isSome) then .error .unknownArgument
    else .error .unknownCommand
  | .nothing => .error .unknownArgument
  | .input =>
    if p.hasInput then .error .unknownArgument
    else do .ok { ← p.settle level with pending := .operands [text] }
  | .number | .idSet =>
    match p.pending with
    | .operands texts => .ok { p with pending := .operands (texts ++ [text]) }
    | _ => do .ok { ← p.settle level with pending := .operands [text] }

/-- Reads a word that is no option. -/
def takePlain (level : Level) (p : Progress) (text : String) : Except Usage Progress :=
  match p.pending with
  | .awaiting parameter => .ok { p with pending := .valued parameter text }
  | _ => p.takeOperand level text

/-- Reads a word. -/
def step (level : Level) (p : Progress) (word : String) : Except Usage Progress :=
  if p.isLiteral then p.takeOperand level word
  else match Token.ofWord word with
  | .separator => .ok { p with isLiteral := true }
  | .long name value =>
    match level.long? name with
    | none => .error .unknownArgument
    | some option => p.takeOption level option value
  | .letters cs => p.takeLetters level cs
  | .plain => p.takePlain level word

/-- Whether the next word may be a verb: not behind `--`, and not where a value is due. -/
def expectsVerb (p : Progress) : Bool :=
  !p.isLiteral && match p.pending with
    | .awaiting _ => false
    | _ => true

end Progress

/-! ## Reading a command line -/

/-- What the words behind `help` come to: verbs have no further words below them. -/
def helpOn : List String → Usage
  | [] => .helpWanted
  | [topic] =>
    if topic = helpWord ∨ (Verb.ofWord? topic).isSome then .helpWanted else .unknownCommand
  | _ => .unknownCommand

/-- Reads the top level up to the verb; the words behind it are left. -/
def readTop : Progress → List String → Except Usage (Progress × Option (Verb × List String))
  | p, [] => .ok (p, none)
  | p, word :: rest =>
    if p.expectsVerb ∧ word = helpWord then .error (helpOn rest)
    else match if p.expectsVerb then Verb.ofWord? word else none with
    | some verb => .ok (p, some (verb, rest))
    | none => do readTop (← p.step .top word) rest

/-- Reads the words behind a verb. -/
def readCommand (verb : Verb) (words : List String) : Except Usage Settings := do
  let p ← words.foldlM (Progress.step (.command verb)) Progress.start
  let p ← p.settle (.command verb)
  p.settings.consistent

/-- What a command line asks for; what is said behind the verb goes before what is said in front. -/
def parse (words : List String) : Except Usage Arguments := do
  match ← readTop .start words with
  | (p, none) =>
    let p ← p.settle .top
    .error (if p.settings = .empty then .nothingGiven else .missingCommand)
  | (p, some (verb, rest)) =>
    let inner ← readCommand verb rest
    let command ← inner.command verb
    let p ← p.settle .top
    let outer ← p.settings.consistent
    let isOn := fun switch => inner.isOn switch || outer.isOn switch
    .ok ⟨command, inner.regionDir <|> outer.regionDir, isOn .isPrivate, isOn .noDenylist,
      isOn .quiet⟩

end OffsetAtlas.CommandLine
