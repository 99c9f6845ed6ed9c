/-
OffsetAtlas.Delta.Field — one number of a record, written against the number before it.

A mode says how many payload bytes follow and what they do to the number before: replace it, add to
it, or be subtracted from it, in 64-bit arithmetic that wraps around. `Field.shortest` picks the
mode with the fewest bytes; whatever it picks gives the number back (`apply_shortest`).
-/
import OffsetAtlas.Bytes.Reader

namespace OffsetAtlas.Delta

/-- How a number follows from the one before it. -/
inductive Mode where
  /-- The number itself, in eight bytes. -/
  | literal64
  /-- One more than before. -/
  | increment
  /-- Up by one byte's worth. -/
  | up8
  /-- Down by one byte's worth. -/
  | down8
  /-- Up by two bytes' worth. -/
  | up16
  /-- Down by two bytes' worth. -/
  | down16
  /-- The number itself, in two bytes. -/
  | literal16
  /-- The number itself, in four bytes. -/
  | literal32
  deriving DecidableEq, Repr

namespace Mode

/-- The three bits that stand for a mode. -/
def code : Mode → Nat
  | .literal64 => 0
  | .increment => 1
  | .up8 => 2
  | .down8 => 3
  | .up16 => 4
  | .down16 => 5
  | .literal16 => 6
  | .literal32 => 7

/-- The mode that a code stands for. -/
def ofCode? : Nat → Option Mode
  | 0 => some .literal64
  | 1 => some .increment
  | 2 => some .up8
  | 3 => some .down8
  | 4 => some .up16
  | 5 => some .down16
  | 6 => some .literal16
  | 7 => some .literal32
  | _ => none

theorem code_lt (m : Mode) : m.code < 8 := by
  cases m <;> decide

@[simp] theorem ofCode?_code (m : Mode) : ofCode? m.code = some m := by
  cases m <;> rfl

/-- How many payload bytes a mode has. -/
def width : Mode → Nat
  | .literal64 => 8
  | .increment => 0
  | .up8 => 1
  | .down8 => 1
  | .up16 => 2
  | .down16 => 2
  | .literal16 => 2
  | .literal32 => 4

/-- What a mode's payload is called. -/
def label : Mode → String
  | .literal64 => "u64 literal"
  | .increment => "increment"
  | .up8 => "u8 delta"
  | .down8 => "u8 delta"
  | .up16 => "u16 delta"
  | .down16 => "u16 delta"
  | .literal16 => "u16 literal"
  | .literal32 => "u32 literal"

/-- The number that a payload makes of the one before. -/
def apply (m : Mode) (base payload : UInt64) : UInt64 :=
  match m with
  | .literal64 => payload
  | .increment => base + 1
  | .up8 => base + payload
  | .down8 => base - payload
  | .up16 => base + payload
  | .down16 => base - payload
  | .literal16 => payload
  | .literal32 => payload

/-- Reads a payload and applies it to the number before. -/
def decode (m : Mode) (base : UInt64) : Attempt Reader UInt64 :=
  (fun n => m.apply base (UInt64.ofNat n)) <$> Reader.word m.width m.label

end Mode

/-- A mode with its payload. -/
structure Field where
  mode : Mode
  payload : UInt64
  deriving DecidableEq, Repr

namespace Field

/-- The payload as it is stored. -/
def bytes (f : Field) : List UInt8 :=
  Bytes.write f.mode.width f.payload.toNat

/-- A number by itself, in as few bytes as hold it. -/
def literal (value : UInt64) : Field :=
  if value.toNat < Bytes.capacity 2 then ⟨.literal16, value⟩
  else if value.toNat < Bytes.capacity 4 then ⟨.literal32, value⟩
  else ⟨.literal64, value⟩

/-- A number against the one before it, in as few bytes as hold it. -/
def shortest (base value : UInt64) : Field :=
  if value = base + 1 then ⟨.increment, 0⟩
  else if base ≤ value then
    if (value - base).toNat < Bytes.capacity 1 then ⟨.up8, value - base⟩
    else if (value - base).toNat < Bytes.capacity 2 then ⟨.up16, value - base⟩
    else literal value
  else
    if (base - value).toNat < Bytes.capacity 1 then ⟨.down8, base - value⟩
    else if (base - value).toNat < Bytes.capacity 2 then ⟨.down16, base - value⟩
    else literal value

/-- The number that a field makes of the one before. -/
def apply (f : Field) (base : UInt64) : UInt64 :=
  f.mode.apply base f.payload

theorem apply_literal (base value : UInt64) : (literal value).apply base = value := by
  unfold literal
  split
  · rfl
  · split <;> rfl

theorem add_difference (base value : UInt64) : base + (value - base) = value := by
  grind

theorem sub_difference (base value : UInt64) : base - (base - value) = value := by
  grind

/-- The shortest field gives the number back. -/
theorem apply_shortest (base value : UInt64) : (shortest base value).apply base = value := by
  unfold shortest
  split
  · next h => exact h.symm
  · split
    · split
      · exact add_difference base value
      · split
        · exact add_difference base value
        · exact apply_literal base value
    · split
      · exact sub_difference base value
      · split
        · exact sub_difference base value
        · exact apply_literal base value

end Field

end OffsetAtlas.Delta
