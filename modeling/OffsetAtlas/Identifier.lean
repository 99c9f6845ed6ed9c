/-
OffsetAtlas.Identifier — identifiers as callers have them, and how they become addresses.

Code that runs in several builds of a module may carry one identifier for each of them, with zero
for a build that has none of its own. `resolveSlots` picks the one to use. An address is the base of
the module plus the offset of the identifier, given only for the version that the database
describes.
-/
import OffsetAtlas.Database.Open

namespace OffsetAtlas

/-! ## Slots -/

/-- The first identifier that is given. -/
def firstGiven (slots : List UInt64) : UInt64 :=
  (slots.find? (· ≠ 0)).getD 0

/-- The identifier for a build: its own, else the primary one, else the first that is given. A build
behind the last slot gets the first that is given. -/
def resolveSlots (slots : List UInt64) (build : Nat) : UInt64 :=
  match slots[build]? with
  | none => firstGiven slots
  | some own =>
    if own ≠ 0 then own
    else if 0 < build ∧ slots.headD 0 ≠ 0 then slots.headD 0
    else firstGiven slots

/-- One identifier for each of `n` builds. -/
structure RuntimeId (n : Nat) where
  slots : Vector UInt64 n
  deriving DecidableEq

namespace RuntimeId

variable {n : Nat}

/-- The slots filled in order; surplus identifiers are dropped and missing ones are zero. -/
def ofList (ids : List UInt64) : RuntimeId n :=
  ⟨Vector.ofFn fun i => ids.getD i.val 0⟩

/-- The first and the second identifier. -/
def pair (primary secondary : UInt64) : RuntimeId n :=
  ofList [primary, secondary]

/-- No identifier for any build. -/
def unset : RuntimeId n :=
  ofList []

/-- The slot of a build, zero behind the last one. -/
def raw (r : RuntimeId n) (build : Nat) : UInt64 :=
  (r.slots[build]?).getD 0

/-- Whether a build has an identifier of its own. -/
def isExplicit (r : RuntimeId n) (build : Nat) : Bool :=
  r.raw build ≠ 0

/-- The identifier for a build. -/
def resolve (r : RuntimeId n) (build : Nat) : UInt64 :=
  resolveSlots r.slots.toList build

end RuntimeId

/-- An identifier as a caller has it. -/
inductive Identifier where
  /-- The same for every build. -/
  | simple (id : UInt64)
  /-- One for each build. -/
  | perBuild {n : Nat} (id : RuntimeId n)

/-- The identifier for a build. -/
def Identifier.resolve : Identifier → Nat → UInt64
  | .simple id, _ => id
  | .perBuild id, build => id.resolve build

/-! ## Builds and modules -/

/-- Which build is running. -/
inductive RuntimeSource where
  /-- Always this one. -/
  | fixed (build : Nat)
  /-- Whichever is found out on asking. -/
  | detected (ask : Unit → Nat)

namespace RuntimeSource

/-- The source for code that supports so many builds; for one there is nothing to ask. -/
def forCount (builds : Nat) (ask : Unit → Nat) : RuntimeSource :=
  if builds ≤ 1 then .fixed 0 else .detected ask

/-- The running build. -/
def current : RuntimeSource → Nat
  | .fixed build => build
  | .detected ask => ask ()

/-- Whether the build is known without asking. -/
def isFixed : RuntimeSource → Bool
  | .fixed _ => true
  | .detected _ => false

end RuntimeSource

/-- The module in memory. -/
structure GameModule where
  base : UInt64
  version : Version
  deriving DecidableEq, Repr

/-- All that an identifier needs to become an address. -/
structure AddressContext where
  database : Database
  gameModule : GameModule
  runtime : RuntimeSource

namespace AddressContext

/-- The context for a database and a module, for the first build. -/
def of (db : Database) (m : GameModule) : AddressContext :=
  ⟨db, m, .fixed 0⟩

/-- The context for the installed database. -/
def ofInstalled (i : Installed) (m : GameModule) : Except Failure AddressContext :=
  i.get.map fun db => of db m

/-- The same context for another source of builds. -/
def withRuntime (c : AddressContext) (runtime : RuntimeSource) : AddressContext :=
  { c with runtime }

/-- The context in one line. -/
def describe (c : AddressContext) : String :=
  let runtime := match c.runtime with
    | .fixed build => "Fixed(" ++ Text.Numeral.decimal build ++ ")"
    | .detected _ => "Detect"
  "AddressContext \x7b database: " ++ Text.quoted c.database.path.text ++ ", base: 0x"
    ++ Text.Numeral.hex c.gameModule.base.toNat ++ ", runtime: " ++ runtime ++ " \x7d"

end AddressContext

/-! ## Addresses -/

namespace Identifier

/-- The offset of an identifier for the running build. -/
def offset (id : Identifier) (c : AddressContext) : Except Failure UInt64 :=
  c.database.offset (id.resolve c.runtime.current)

/-- The address of an identifier in the module, if the module is of the database's version. -/
def address (id : Identifier) (c : AddressContext) : Except Failure UInt64 :=
  if c.gameModule.version = c.database.version then
    (id.offset c).map fun offset => c.gameModule.base + offset
  else .error (.versionMismatch c.gameModule.version c.database.version)

end Identifier

end OffsetAtlas
