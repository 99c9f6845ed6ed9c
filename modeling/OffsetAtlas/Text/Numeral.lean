/-
OffsetAtlas.Text.Numeral — unsigned numbers as text, in any base up to sixteen.

`write` prints a number with upper-case digits and no leading zero. `read` takes one optional `+`
and digits of either case, any number of leading zeros, and answers with the first fault met from
the left: a digit is looked at before the bound is, so of a bad digit and an overflow at the same
place the bad digit is reported.
-/

namespace OffsetAtlas.Text.Numeral

/-- Why a text is not an unsigned number below the bound. -/
inductive Fault where
  /-- There is no text at all. -/
  | empty
  /-- A character that is not a digit of the base, or a sign that stands alone. -/
  | invalidDigit
  /-- The digits denote a number at or above the bound. -/
  | tooLarge
  deriving DecidableEq, Repr

/-- The fault in words. -/
def Fault.message : Fault → String
  | .empty => "cannot parse integer from empty string"
  | .invalidDigit => "invalid digit found in string"
  | .tooLarge => "number too large to fit in target type"

/-! ## Digits -/

/-- The digit that stands for `d`, upper-case from ten on. -/
def digit (d : Nat) : Char :=
  if d < 10 then Char.ofNat (48 + d) else Char.ofNat (55 + d)

/-- What a character stands for as a digit, in either case. -/
def digitValue (c : Char) : Option Nat :=
  let n := c.toNat
  if 48 ≤ n && n ≤ 57 then some (n - 48)
  else if 97 ≤ n && n ≤ 102 then some (n - 87)
  else if 65 ≤ n && n ≤ 70 then some (n - 55)
  else none

/-- The value of a digit of `base`. -/
def digitOf (base : Nat) (c : Char) : Option Nat :=
  (digitValue c).filter (· < base)

/-! ## Writing -/

/-- The digits of `n`, put in front of `acc`; `fuel` bounds their number. -/
def writeAux (base : Nat) : Nat → Nat → List Char → List Char
  | 0, _, acc => acc
  | fuel + 1, n, acc =>
    if n < base then digit n :: acc
    else writeAux base fuel (n / base) (digit (n % base) :: acc)

/-- The digits of `n` in a base of at least two. -/
def write (base n : Nat) : List Char :=
  writeAux base (n + 1) n []

/-- A number in decimal. -/
def decimal (n : Nat) : String :=
  String.ofList (write 10 n)

/-- A number in hexadecimal, without leading zeros. -/
def hex (n : Nat) : String :=
  String.ofList (write 16 n)

/-- Two hexadecimal digits for each byte. -/
def hexBytes (bs : List UInt8) : String :=
  String.ofList (bs.flatMap fun b => [digit (b.toNat / 16), digit (b.toNat % 16)])

/-! ## Reading -/

/-- Continues a number whose digits so far denote `acc`. -/
def readDigits (base bound acc : Nat) : List Char → Except Fault Nat
  | [] => .ok acc
  | c :: cs =>
    match digitOf base c with
    | none => .error .invalidDigit
    | some d =>
      if acc * base + d < bound then readDigits base bound (acc * base + d) cs
      else .error .tooLarge

/-- An unsigned number below `bound`: one optional plus sign and at least one digit. -/
def read (base bound : Nat) : List Char → Except Fault Nat
  | [] => .error .empty
  | ['+'] => .error .invalidDigit
  | '+' :: cs => readDigits base bound 0 cs
  | cs => readDigits base bound 0 cs

end OffsetAtlas.Text.Numeral
