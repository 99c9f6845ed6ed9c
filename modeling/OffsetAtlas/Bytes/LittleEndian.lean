/-
OffsetAtlas.Bytes.LittleEndian — fixed-width numbers, least significant byte first.

Every number in a database file is written this way. `write w n` gives exactly `w` bytes and
`read` takes any bytes back to a number; on numbers below `capacity w` they undo each other
(`read_write`).
-/

namespace OffsetAtlas.Bytes

/-- How many numbers `w` bytes can hold. -/
def capacity : Nat → Nat
  | 0 => 1
  | w + 1 => 256 * capacity w

/-- The `w` bytes of `n`; what does not fit is dropped. -/
def write : Nat → Nat → List UInt8
  | 0, _ => []
  | w + 1, n => UInt8.ofNat (n % 256) :: write w (n / 256)

/-- The number with these bytes. -/
def read : List UInt8 → Nat
  | [] => 0
  | b :: bs => b.toNat + 256 * read bs

@[simp] theorem length_write (w n : Nat) : (write w n).length = w := by
  induction w generalizing n with
  | zero => rfl
  | succ w ih => simp [write, ih]

/-- Writing keeps the number up to the width. -/
theorem read_write_mod (w n : Nat) : read (write w n) = n % capacity w := by
  induction w generalizing n with
  | zero => simp [write, read, capacity, Nat.mod_one]
  | succ w ih =>
    have byte : (UInt8.ofNat (n % 256)).toNat = n % 256 := by simp
    rw [write, read, ih, byte, capacity, Nat.mod_mul]

/-- A number that fits is read back. -/
theorem read_write {w n : Nat} (h : n < capacity w) : read (write w n) = n := by
  rw [read_write_mod, Nat.mod_eq_of_lt h]

/-- Bytes hold a number within their capacity. -/
theorem read_lt (bs : List UInt8) : read bs < capacity bs.length := by
  induction bs with
  | nil => simp [read, capacity]
  | cons b bs ih =>
    have hb := b.toNat_lt
    simp only [read, List.length_cons, capacity]
    omega

/-! ## Words -/

/-- The bytes of a 32-bit word. -/
def ofUInt32 (n : UInt32) : List UInt8 := write 4 n.toNat

/-- The bytes of a 64-bit word. -/
def ofUInt64 (n : UInt64) : List UInt8 := write 8 n.toNat

end OffsetAtlas.Bytes
