/-
OffsetAtlas.Text.Utf8 — text as UTF-8 bytes.

`next` reads one character, or reports that the bytes in front are the longest start of a
character that cannot be completed. Both readers are built on it: `decode?` refuses such bytes,
`decodeLossy` puts one replacement character for each such run. `encode` writes.
-/

namespace OffsetAtlas.Text.Utf8

/-! ## Writing -/

/-- The bytes of one character. -/
def encodeChar (c : Char) : List UInt8 :=
  let n := c.toNat
  if n < 0x80 then [UInt8.ofNat n]
  else if n < 0x800 then [UInt8.ofNat (0xC0 + n / 0x40), UInt8.ofNat (0x80 + n % 0x40)]
  else if n < 0x10000 then
    [UInt8.ofNat (0xE0 + n / 0x1000), UInt8.ofNat (0x80 + n / 0x40 % 0x40),
      UInt8.ofNat (0x80 + n % 0x40)]
  else
    [UInt8.ofNat (0xF0 + n / 0x40000), UInt8.ofNat (0x80 + n / 0x1000 % 0x40),
      UInt8.ofNat (0x80 + n / 0x40 % 0x40), UInt8.ofNat (0x80 + n % 0x40)]

/-- The bytes of a text. -/
def encode (s : String) : List UInt8 :=
  s.toList.flatMap encodeChar

/-! ## Reading -/

/-- What a first byte announces: how many bytes follow, the bits it contributes, and the range of
the byte after it. -/
structure Lead where
  tails : Nat
  bits : Nat
  low : UInt8
  high : UInt8

/-- The first bytes of a character; the narrow ranges keep out overlong forms, surrogates and code
points above U+10FFFF. -/
def lead? (b : UInt8) : Option Lead :=
  if b < 0x80 then some ⟨0, b.toNat, 0x80, 0xBF⟩
  else if 0xC2 ≤ b && b ≤ 0xDF then some ⟨1, b.toNat - 0xC0, 0x80, 0xBF⟩
  else if b = 0xE0 then some ⟨2, 0, 0xA0, 0xBF⟩
  else if b = 0xED then some ⟨2, 0x0D, 0x80, 0x9F⟩
  else if 0xE1 ≤ b && b ≤ 0xEF then some ⟨2, b.toNat - 0xE0, 0x80, 0xBF⟩
  else if b = 0xF0 then some ⟨3, 0, 0x90, 0xBF⟩
  else if 0xF1 ≤ b && b ≤ 0xF3 then some ⟨3, b.toNat - 0xF0, 0x80, 0xBF⟩
  else if b = 0xF4 then some ⟨3, 4, 0x80, 0x8F⟩
  else none

/-- Reads the bytes that follow a first byte. Without an answer the rest starts at the first byte
that does not fit. -/
def tail : Nat → UInt8 → UInt8 → Nat → List UInt8 → Option Nat × List UInt8
  | 0, _, _, code, bs => (some code, bs)
  | _ + 1, _, _, _, [] => (none, [])
  | n + 1, low, high, code, b :: bs =>
    if low ≤ b && b ≤ high then tail n 0x80 0xBF (code * 0x40 + (b.toNat - 0x80)) bs
    else (none, b :: bs)

/-- One character from a first byte and the bytes after it, with the bytes left over; no character
means that the bytes used up are no start of one. -/
def next (b : UInt8) (bs : List UInt8) : Option Char × List UInt8 :=
  match lead? b with
  | none => (none, bs)
  | some l =>
    let r := tail l.tails l.low l.high l.bits bs
    (r.1.map Char.ofNat, r.2)

theorem length_tail_le (n : Nat) (low high : UInt8) (code : Nat) (bs : List UInt8) :
    (tail n low high code bs).2.length ≤ bs.length := by
  induction n generalizing low high code bs with
  | zero => simp [tail]
  | succ n ih =>
    cases bs with
    | nil => simp [tail]
    | cons b bs =>
      simp only [tail]
      split
      · exact Nat.le_succ_of_le (ih ..)
      · exact Nat.le_refl _

/-- Reading a character never gives bytes back. -/
theorem length_next_le (b : UInt8) (bs : List UInt8) : (next b bs).2.length ≤ bs.length := by
  unfold next
  split
  · exact Nat.le_refl _
  · exact length_tail_le ..

/-- The characters of a byte string, one at a time, with no character for each run of bytes that
starts none. -/
def scan : List UInt8 → List (Option Char)
  | [] => []
  | b :: bs =>
    let r := next b bs
    r.1 :: scan r.2
termination_by bs => bs.length
decreasing_by exact Nat.lt_succ_of_le (length_next_le b bs)

/-- The text of well-formed bytes. -/
def decode? (bs : List UInt8) : Option (List Char) :=
  (scan bs).mapM id

/-- ASCII bytes are one character each. -/
theorem decode?_of_ascii {bs : List UInt8} (h : bs.all (· < 0x80) = true) :
    decode? bs = some (bs.map fun b => Char.ofNat b.toNat) := by
  unfold decode?
  induction bs with
  | nil => simp [scan]
  | cons b bs ih =>
    rw [List.all_cons, Bool.and_eq_true] at h
    have hb : lead? b = some ⟨0, b.toNat, 0x80, 0xBF⟩ := if_pos (of_decide_eq_true h.1)
    have hnext : next b bs = (some (Char.ofNat b.toNat), bs) := by simp [next, hb, tail]
    rw [scan, hnext, List.mapM_cons, ih h.2]
    rfl

/-- The text of any bytes, with U+FFFD for each run of bytes that starts no character. -/
def decodeLossy (bs : List UInt8) : List Char :=
  (scan bs).map (·.getD (Char.ofNat 0xFFFD))

/-- Bytes up to the first NUL, read as text whatever they are. -/
def untilNul (bs : List UInt8) : String :=
  String.ofList (decodeLossy (bs.takeWhile (· ≠ 0)))

end OffsetAtlas.Text.Utf8
