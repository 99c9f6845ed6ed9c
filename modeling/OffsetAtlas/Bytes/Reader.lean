/-
OffsetAtlas.Bytes.Reader — a cursor over a byte string.

A reader knows how many bytes it has passed and holds the bytes not read yet. `bytes` takes a run
of them or, without moving, says how many there were; each number is one run. A version is four
numbers, so an attempt that fails on one of them leaves the cursor behind the numbers before it.
-/
import OffsetAtlas.Bytes.LittleEndian
import OffsetAtlas.Attempt

namespace OffsetAtlas

/-- A place in a byte string. -/
structure Reader where
  /-- How many bytes lie behind the cursor. -/
  position : Nat
  /-- The bytes in front of the cursor. -/
  unread : List UInt8
  deriving Repr, DecidableEq

namespace Reader

/-- A cursor in front of the first byte. -/
def ofBytes (bs : List UInt8) : Reader :=
  ⟨0, bs⟩

/-- How many bytes are left. -/
def remaining (r : Reader) : Nat :=
  r.unread.length

/-- The next `n` bytes, called `what` should they be missing. -/
def bytes (n : Nat) (what : String) : Attempt Reader (List UInt8) := fun r =>
  let run := r.unread.take n
  if run.length = n then (.ok run, ⟨r.position + n, r.unread.drop n⟩)
  else (.error (.truncated what n r.remaining), r)

/-- The next `w` bytes as a number. -/
def word (w : Nat) (what : String) : Attempt Reader Nat :=
  Bytes.read <$> bytes w what

/-- The next byte. -/
def u8 (what : String) : Attempt Reader UInt8 :=
  UInt8.ofNat <$> word 1 what

/-- The next 16-bit number. -/
def u16 (what : String) : Attempt Reader UInt16 :=
  UInt16.ofNat <$> word 2 what

/-- The next 32-bit number. -/
def u32 (what : String) : Attempt Reader UInt32 :=
  UInt32.ofNat <$> word 4 what

/-- The next signed 32-bit number. -/
def i32 (what : String) : Attempt Reader Int32 :=
  Int32.ofNat <$> word 4 what

/-- The next 64-bit number. -/
def u64 (what : String) : Attempt Reader UInt64 :=
  UInt64.ofNat <$> word 8 what

/-- The next four words, which spell a version. -/
def versionWords : Attempt Reader (Vector UInt32 4) := do
  let major ← u32 "game version"
  let minor ← u32 "game version"
  let patch ← u32 "game version"
  let build ← u32 "game version"
  return #v[major, minor, patch, build]

/-- The next four words as a version. -/
def version : Attempt Reader Version := do
  let words ← versionWords
  return Version.ofWords words[0] words[1] words[2] words[3]

/-- A count stored as a signed number, which must not be negative. -/
def count (what : String) : Attempt Reader Nat := do
  let n ← i32 what
  if n < 0 then Attempt.fail (.malformedHeader (.negative what n.toInt))
  else return n.toInt.toNat

end Reader

end OffsetAtlas
