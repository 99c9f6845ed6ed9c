/-
OffsetAtlas.Proofs.Text.Numeral — which texts are numbers.

Reading goes from the left and stops at the first fault, and the bound is looked at behind every
digit. A number never gets smaller by a further digit, so that is the same as looking at the bound
once, when all digits are read (`readDigits_eq_ok_iff`). What is left to say is that digits are
digits: main statements are `read_eq_ok_iff` and `read_sixteen_eq_ok_iff`, by which a decimal or
hexadecimal text is read as what it denotes, or not at all.

What is written are the digits of the standard library, in upper case (`write_eq`), so that its
lemmas say what they are. They denote the number (`valueFrom_writeAux`), and no other number is
written so (`write_injective`).
-/
import Mathlib.Data.Nat.Digits.Defs
import Mathlib.Tactic.Ring
import OffsetAtlas.Proofs.Attempt.Each
import OffsetAtlas.Proofs.Text.WhiteSpace
import OffsetAtlas.Text.Numeral

namespace OffsetAtlas.Text.Numeral

variable {base bound acc n : Nat} {text : List Char}

/-! ## Digits -/

/-- The number that digits denote behind digits that denote `acc`. -/
def valueFrom (base acc : Nat) (digits : List Char) : Nat :=
  digits.foldl (fun acc c => acc * base + (digitOf base c).getD 0) acc

theorem valueFrom_cons {c : Char} {d : Nat} (hd : digitOf base c = some d) (acc : Nat)
    (cs : List Char) : valueFrom base acc (c :: cs) = valueFrom base (acc * base + d) cs := by
  rw [valueFrom, List.foldl_cons, hd]
  rfl

theorem le_valueFrom (hbase : 0 < base) (acc : Nat) (digits : List Char) :
    acc ≤ valueFrom base acc digits := by
  induction digits generalizing acc with
  | nil => exact Nat.le_refl acc
  | cons c cs ih =>
    refine Nat.le_trans ?_ (ih (acc * base + (digitOf base c).getD 0))
    exact Nat.le_trans (Nat.le_mul_of_pos_right acc hbase) (Nat.le_add_right _ _)

/-- Digits are read as what they denote if that is below the bound. -/
theorem readDigits_eq_ok_iff (hbase : 0 < base) (hacc : acc < bound) :
    readDigits base bound acc text = .ok n
      ↔ (∀ c ∈ text, (digitOf base c).isSome) ∧ valueFrom base acc text = n ∧ n < bound := by
  induction text generalizing acc with
  | nil =>
    rw [readDigits, Except.ok.injEq]
    constructor
    · rintro rfl
      exact ⟨by simp, rfl, hacc⟩
    · rintro ⟨-, hvalue, -⟩
      exact hvalue
  | cons c cs ih =>
    cases hd : digitOf base c with
    | none => simp [readDigits, hd]
    | some d =>
      simp only [readDigits, hd, List.forall_mem_cons, Option.isSome_some, true_and,
        valueFrom_cons hd]
      split
      · next hlt => exact ih hlt
      · next hge =>
        have hle := le_valueFrom hbase (acc * base + d) cs
        constructor
        · rintro ⟨⟩
        · rintro ⟨-, rfl, hlt⟩
          exact absurd (Nat.lt_of_le_of_lt hle hlt) hge

theorem digitOf_plus (base : Nat) : digitOf base '+' = none := rfl

/-- A plus sign in front of digits is passed over, and nothing else is. -/
theorem read_eq_ok_iff_digits :
    read base bound text = .ok n ↔ ∃ digits, (text = digits ∨ text = '+' :: digits) ∧ digits ≠ []
      ∧ readDigits base bound 0 digits = .ok n := by
  have hplus : ∀ cs, readDigits base bound 0 ('+' :: cs) = .error .invalidDigit := fun cs => by
    rw [readDigits, digitOf_plus]
  match text with
  | [] => simp [read]
  | c :: cs =>
    by_cases hc : c = '+'
    · subst hc
      constructor
      · intro h
        cases cs with
        | nil => cases h
        | cons d ds => exact ⟨d :: ds, .inr rfl, List.cons_ne_nil d ds, h⟩
      · rintro ⟨digits, rfl | heq, hne, hread⟩
        · rw [hplus] at hread
          cases hread
        · cases heq
          obtain ⟨d, ds, rfl⟩ := List.exists_cons_of_ne_nil hne
          exact hread
    · have hread : read base bound (c :: cs) = readDigits base bound 0 (c :: cs) := by
        unfold read
        split
        · next heq => cases heq
        · next heq => exact absurd (List.cons.inj heq).1 hc
        · next heq => exact absurd (List.cons.inj heq).1 hc
        · rfl
      rw [hread]
      constructor
      · exact fun h => ⟨_, .inl rfl, List.cons_ne_nil c cs, h⟩
      · rintro ⟨digits, rfl | heq, -, hread⟩
        · exact hread
        · exact absurd (List.cons.inj heq).1 hc

/-! ## Decimals -/

/-- An optional plus sign and one or more decimal digits, which denote a number. -/
def Denotes (text : List Char) (n : Nat) : Prop :=
  ∃ digits, (text = digits ∨ text = '+' :: digits) ∧ digits ≠ []
    ∧ (∀ c ∈ digits, c.isDigit = true) ∧ Nat.ofDigitChars 10 digits 0 = n

theorem isDigit_iff {c : Char} : c.isDigit = true ↔ 48 ≤ c.toNat ∧ c.toNat ≤ 57 := by
  rw [Char.isDigit, Bool.and_eq_true, decide_eq_true_eq, decide_eq_true_eq]
  exact and_congr UInt32.le_iff_toNat_le UInt32.le_iff_toNat_le

theorem digitOf_ten_of_isDigit {c : Char} (h : c.isDigit = true) :
    digitOf 10 c = some (c.toNat - '0'.toNat) := by
  obtain ⟨hlow, hhigh⟩ := isDigit_iff.1 h
  have hvalue : digitValue c = some (c.toNat - 48) :=
    if_pos (by rw [Bool.and_eq_true, decide_eq_true_eq, decide_eq_true_eq]; exact ⟨hlow, hhigh⟩)
  rw [digitOf, hvalue]
  exact if_pos (decide_eq_true (by omega))

theorem isSome_digitOf_ten {c : Char} : (digitOf 10 c).isSome ↔ c.isDigit = true := by
  constructor
  · intro h
    obtain ⟨d, hd⟩ := Option.isSome_iff_exists.1 h
    obtain ⟨hvalue, hlt⟩ := Option.filter_eq_some_iff.1 hd
    have hlt := of_decide_eq_true hlt
    rw [isDigit_iff]
    -- Letters denote ten and more.
    simp only [digitValue, Bool.and_eq_true, decide_eq_true_eq] at hvalue
    split at hvalue
    · assumption
    · split at hvalue
      · cases hvalue
        omega
      · split at hvalue
        · cases hvalue
          omega
        · cases hvalue
  · intro h
    rw [digitOf_ten_of_isDigit h]
    rfl

theorem valueFrom_ten (h : ∀ c ∈ text, c.isDigit = true) (acc : Nat) :
    valueFrom 10 acc text = Nat.ofDigitChars 10 text acc := by
  induction text generalizing acc with
  | nil => rw [Nat.ofDigitChars_nil]; rfl
  | cons c cs ih =>
    rw [valueFrom_cons (digitOf_ten_of_isDigit (h c List.mem_cons_self)), Nat.ofDigitChars_cons,
      ih fun d hd => h d (List.mem_cons_of_mem c hd), Nat.mul_comm]

theorem readDigits_ten_eq_ok_iff (hbound : 0 < bound) :
    readDigits 10 bound 0 text = .ok n
      ↔ (∀ c ∈ text, c.isDigit = true) ∧ Nat.ofDigitChars 10 text 0 = n ∧ n < bound := by
  rw [readDigits_eq_ok_iff (Nat.succ_pos 9) hbound]
  simp only [isSome_digitOf_ten]
  exact and_congr_right fun hdigits => by rw [valueFrom_ten hdigits]

/-- **A decimal text is read as the number that it denotes, if that is below the bound.** -/
theorem read_eq_ok_iff (hbound : 0 < bound) :
    read 10 bound text = .ok n ↔ Denotes text n ∧ n < bound := by
  rw [read_eq_ok_iff_digits]
  simp only [readDigits_ten_eq_ok_iff hbound]
  constructor
  · rintro ⟨digits, htext, hne, hdigits, hvalue, hlt⟩
    exact ⟨⟨digits, htext, hne, hdigits, hvalue⟩, hlt⟩
  · rintro ⟨⟨digits, htext, hne, hdigits, hvalue⟩, hlt⟩
    exact ⟨digits, htext, hne, hdigits, hvalue, hlt⟩

theorem isBlank_of_isDigit {c : Char} (h : c.isDigit = true) : isBlank c = false := by
  obtain ⟨hlow, hhigh⟩ := isDigit_iff.1 h
  exact isBlank_of_visible (by omega) (by omega)

/-- There is no blank in a number. -/
theorem isBlank_of_denotes (h : Denotes text n) : ∀ c ∈ text, isBlank c = false := by
  obtain ⟨digits, htext, -, hdigits, -⟩ := h
  intro c hc
  rcases htext with rfl | rfl
  · exact isBlank_of_isDigit (hdigits c hc)
  · rcases List.mem_cons.1 hc with rfl | hc
    · rfl
    · exact isBlank_of_isDigit (hdigits c hc)

theorem ofDigitChars_lt (h : ∀ c ∈ text, c.isDigit = true) :
    Nat.ofDigitChars 10 text 0 < 10 ^ text.length := by
  induction text with
  | nil => simp [Nat.ofDigitChars_nil]
  | cons c cs ih =>
    have hc : c.toNat - '0'.toNat ≤ 9 :=
      Nat.sub_le_of_le_add (isDigit_iff.1 (h c List.mem_cons_self)).2
    have hcs := ih fun d hd => h d (List.mem_cons_of_mem c hd)
    have hdigit := Nat.mul_le_mul_left (10 ^ cs.length) hc
    rw [Nat.ofDigitChars_cons, Nat.mul_zero, Nat.zero_add, Nat.ofDigitChars_eq_ofDigitChars_zero,
      List.length_cons, Nat.pow_succ]
    omega

/-- A large number needs many characters. -/
theorem Denotes.lt_pow (h : Denotes text n) : n < 10 ^ text.length := by
  obtain ⟨digits, htext, -, hdigits, rfl⟩ := h
  refine Nat.lt_of_lt_of_le (ofDigitChars_lt hdigits) (Nat.pow_le_pow_right (by decide) ?_)
  rcases htext with rfl | rfl
  · exact Nat.le_refl _
  · exact Nat.le_succ _

theorem Denotes.ne_nil (h : Denotes text n) : text ≠ [] := by
  obtain ⟨digits, rfl | rfl, hne, -⟩ := h
  · exact hne
  · exact List.cons_ne_nil _ _

/-! ## Hexadecimals -/

/-- A hexadecimal digit, in either case, and what it stands for. -/
def HexDigit (c : Char) (d : Nat) : Prop :=
  d < 16 ∧ c.toLower = d.digitChar

/-- One or more hexadecimal digits, which denote a number. -/
def DenotesHex (digits : List Char) (n : Nat) : Prop :=
  digits ≠ [] ∧ ∃ values, List.Forall₂ HexDigit digits values ∧ Nat.ofDigits 16 values.reverse = n

theorem toNat_toLower (c : Char) :
    c.toLower.toNat = if 65 ≤ c.toNat ∧ c.toNat ≤ 90 then c.toNat + 32 else c.toNat := by
  have hupper : (c.val ≥ 'A'.val ∧ c.val ≤ 'Z'.val) ↔ 65 ≤ c.toNat ∧ c.toNat ≤ 90 :=
    and_congr UInt32.le_iff_toNat_le UInt32.le_iff_toNat_le
  by_cases h : c.val ≥ 'A'.val ∧ c.val ≤ 'Z'.val
  · have hrange := hupper.1 h
    have hlower : c.toLower.toNat = (c.val + ('a'.val - 'A'.val)).toNat :=
      congrArg Char.toNat (dif_pos h)
    have hdistance : ('a'.val - 'A'.val).toNat = 32 := rfl
    have hval : c.val.toNat = c.toNat := rfl
    rw [if_pos hrange, hlower, UInt32.toNat_add, hdistance, hval, Nat.mod_eq_of_lt (by omega)]
  · have hlower : c.toLower = c := dif_neg h
    rw [if_neg fun hrange => h (hupper.2 hrange), hlower]

theorem toNat_digitChar {d : Nat} (hd : d < 16) :
    d.digitChar.toNat = if d < 10 then 48 + d else 87 + d := by
  have hall : ∀ d < 16, (Nat.digitChar d).toNat = if d < 10 then 48 + d else 87 + d := by decide
  exact hall d hd

/-- Hexadecimal digits by their places among the characters. -/
theorem hexDigit_iff {c : Char} {d : Nat} : HexDigit c d ↔ d < 16
    ∧ (if 65 ≤ c.toNat ∧ c.toNat ≤ 90 then c.toNat + 32 else c.toNat)
      = if d < 10 then 48 + d else 87 + d :=
  and_congr_right fun hd => by rw [← toNat_toLower, ← toNat_digitChar hd, Char.toNat_inj]

theorem digitOf_sixteen_eq_some_iff {c : Char} {d : Nat} :
    digitOf 16 c = some d ↔ HexDigit c d := by
  rw [digitOf, Option.filter_eq_some_iff, decide_eq_true_eq, hexDigit_iff, and_comm]
  refine and_congr_right fun hd => ?_
  simp only [digitValue, Bool.and_eq_true, decide_eq_true_eq]
  generalize c.toNat = n
  -- The three ranges of digits, and everything else.
  by_cases hdecimal : 48 ≤ n ∧ n ≤ 57
  · rw [if_pos hdecimal, if_neg (by omega), Option.some.injEq]
    split <;> omega
  rw [if_neg hdecimal]
  by_cases hlower : 97 ≤ n ∧ n ≤ 102
  · rw [if_pos hlower, if_neg (by omega), Option.some.injEq]
    split <;> omega
  rw [if_neg hlower]
  by_cases hupper : 65 ≤ n ∧ n ≤ 70
  · rw [if_pos hupper, if_pos (by omega), Option.some.injEq]
    split <;> omega
  · rw [if_neg hupper]
    simp only [reduceCtorEq, false_iff]
    split <;> split <;> omega

theorem valueFrom_sixteen {values : List Nat} (h : List.Forall₂ HexDigit text values) (acc : Nat) :
    valueFrom 16 acc text = Nat.ofDigits 16 (values.reverse ++ [acc]) := by
  induction h generalizing acc with
  | nil => rw [List.reverse_nil, List.nil_append, Nat.ofDigits_singleton]; rfl
  | @cons c d cs ds hd _ ih =>
    rw [valueFrom_cons (digitOf_sixteen_eq_some_iff.2 hd), ih]
    simp only [Nat.ofDigits_append, List.reverse_cons, Nat.ofDigits_singleton,
      List.length_append, List.length_singleton]
    ring

theorem isSome_digitOf_sixteen :
    (∀ c ∈ text, (digitOf 16 c).isSome) ↔ ∃ values, List.Forall₂ HexDigit text values := by
  induction text with
  | nil => exact ⟨fun _ => ⟨[], .nil⟩, fun _ => by simp⟩
  | cons c cs ih =>
    rw [List.forall_mem_cons, ih, Option.isSome_iff_exists]
    simp only [digitOf_sixteen_eq_some_iff]
    constructor
    · rintro ⟨⟨d, hd⟩, ds, hds⟩
      exact ⟨d :: ds, .cons hd hds⟩
    · rintro ⟨_, _ | ⟨hd, hds⟩⟩
      exact ⟨⟨_, hd⟩, _, hds⟩

theorem readDigits_sixteen_eq_ok_iff (hbound : 0 < bound) (hne : text ≠ []) :
    readDigits 16 bound 0 text = .ok n ↔ DenotesHex text n ∧ n < bound := by
  have hvalue : ∀ {values}, List.Forall₂ HexDigit text values →
      valueFrom 16 0 text = Nat.ofDigits 16 values.reverse := fun h => by
    rw [valueFrom_sixteen h, Nat.ofDigits_append, Nat.ofDigits_singleton, Nat.mul_zero,
      Nat.add_zero]
  rw [readDigits_eq_ok_iff (by decide) hbound, isSome_digitOf_sixteen]
  constructor
  · rintro ⟨⟨values, hvalues⟩, hread, hlt⟩
    exact ⟨⟨hne, values, hvalues, (hvalue hvalues).symm.trans hread⟩, hlt⟩
  · rintro ⟨⟨-, values, hvalues, hread⟩, hlt⟩
    exact ⟨⟨values, hvalues⟩, (hvalue hvalues).trans hread, hlt⟩

/-- **Hexadecimal digits, too, are read as what they denote**, behind a plus sign at will. -/
theorem read_sixteen_eq_ok_iff (hbound : 0 < bound) :
    read 16 bound text = .ok n
      ↔ ∃ digits, (text = digits ∨ text = '+' :: digits) ∧ DenotesHex digits n ∧ n < bound := by
  rw [read_eq_ok_iff_digits]
  refine exists_congr fun digits => and_congr_right fun _ => ?_
  constructor
  · rintro ⟨hne, hread⟩
    exact (readDigits_sixteen_eq_ok_iff hbound hne).1 hread
  · intro h
    exact ⟨h.1.1, (readDigits_sixteen_eq_ok_iff hbound h.1.1).2 h⟩

/-- There is no blank, and no sign, among hexadecimal digits. -/
theorem DenotesHex.solid (h : DenotesHex text n) : ∀ c ∈ text, isBlank c = false ∧ c ≠ '+' := by
  obtain ⟨-, values, hvalues, -⟩ := h
  intro c hc
  obtain ⟨d, -, hd⟩ := related_of_mem hvalues hc
  obtain ⟨hlt, hplace⟩ := hexDigit_iff.1 hd
  have hrange : 0x30 ≤ c.toNat ∧ c.toNat ≤ 0x66 := by
    split at hplace <;> split at hplace <;> omega
  refine ⟨isBlank_of_visible (by omega) (by omega), ?_⟩
  rintro rfl
  exact absurd hrange.1 (by decide)

/-! ## Writing -/

theorem digit_eq {d : Nat} (hd : d < 16) : digit d = d.digitChar.toUpper := by
  have hall : ∀ d < 16, digit d = (Nat.digitChar d).toUpper := by decide
  exact hall d hd

theorem digitOf_digit {d : Nat} (hbase : base ≤ 16) (hd : d < base) :
    digitOf base (digit d) = some d := by
  have hall : ∀ d < 16, digitValue (digit d) = some d := by decide
  rw [digitOf, hall d (Nat.lt_of_lt_of_le hd hbase)]
  exact if_pos (decide_eq_true hd)

theorem writeAux_eq (hpos : 0 < base) (hbase : base ≤ 16) (fuel n : Nat) (acc : List Char) :
    writeAux base fuel n (acc.map Char.toUpper)
      = (Nat.toDigitsCore base fuel n acc).map Char.toUpper := by
  induction fuel generalizing n acc with
  | zero => rfl
  | succ fuel ih =>
    have hlast : digit (n % base) = (n % base).digitChar.toUpper :=
      digit_eq (Nat.lt_of_lt_of_le (Nat.mod_lt n hpos) hbase)
    simp only [writeAux, Nat.toDigitsCore, Nat.div_eq_zero_iff]
    by_cases hn : n < base
    · rw [if_pos hn, if_pos (.inr hn), List.map_cons, ← hlast, Nat.mod_eq_of_lt hn]
    · rw [if_neg hn, if_neg (by omega), ← ih, List.map_cons, hlast]

/-- A number is written in the digits of the standard library, as upper-case letters from ten on. -/
theorem write_eq (hpos : 0 < base) (hbase : base ≤ 16) (n : Nat) :
    write base n = (Nat.toDigits base n).map Char.toUpper :=
  writeAux_eq hpos hbase (n + 1) n []

theorem toUpper_of_isDigit {c : Char} (h : c.isDigit = true) : c.toUpper = c := by
  refine dif_neg fun hlower => ?_
  have hlow : 97 ≤ c.toNat := UInt32.le_iff_toNat_le.1 hlower.1
  exact absurd (isDigit_iff.1 h).2 (by omega)

theorem decimal_eq (n : Nat) : decimal n = String.ofList (Nat.toDigits 10 n) := by
  have hupper : ∀ c ∈ Nat.toDigits 10 n, c.toUpper = id c := fun c hc =>
    toUpper_of_isDigit (Nat.isDigit_of_mem_toDigits (by decide) (by decide) hc)
  rw [decimal, write_eq (by decide) (by decide), List.map_congr_left hupper, List.map_id]

theorem hex_eq (n : Nat) : hex n = String.ofList ((Nat.toDigits 16 n).map Char.toUpper) := by
  rw [hex, write_eq (by decide) (by decide)]

theorem toList_decimal (n : Nat) : (decimal n).toList = Nat.toDigits 10 n := by
  rw [decimal_eq, String.toList_ofList]

theorem isDigit_of_mem_decimal {c : Char} (h : c ∈ (decimal n).toList) : c.isDigit = true := by
  rw [toList_decimal] at h
  exact Nat.isDigit_of_mem_toDigits (by decide) (by decide) h

/-! ## Reading what was written -/

theorem isSome_digitOf_of_mem_writeAux (hpos : 0 < base) (hbase : base ≤ 16) {c : Char}
    (fuel n : Nat) (acc : List Char) (h : c ∈ writeAux base fuel n acc) :
    (digitOf base c).isSome ∨ c ∈ acc := by
  have hdigit : ∀ d < base, (digitOf base (digit d)).isSome := fun d hd => by
    rw [digitOf_digit hbase hd]
    rfl
  induction fuel generalizing n acc with
  | zero => exact .inr h
  | succ fuel ih =>
    rw [writeAux] at h
    split at h
    · next hn =>
      rcases List.mem_cons.1 h with rfl | hacc
      · exact .inl (hdigit n hn)
      · exact .inr hacc
    · rcases ih _ _ h with hsome | hmem
      · exact .inl hsome
      · rcases List.mem_cons.1 hmem with rfl | hacc
        · exact .inl (hdigit _ (Nat.mod_lt n hpos))
        · exact .inr hacc

/-- Nothing but digits is written. -/
theorem not_mem_write (hpos : 0 < base) (hbase : base ≤ 16) {c : Char}
    (hc : digitOf base c = none) (n : Nat) : c ∉ write base n := by
  intro h
  rcases isSome_digitOf_of_mem_writeAux hpos hbase _ _ _ h with hsome | hnil
  · rw [hc] at hsome
    cases hsome
  · cases hnil

theorem valueFrom_writeAux (hlarge : 1 < base) (hbase : base ≤ 16) (fuel n : Nat) (acc : List Char)
    (hfuel : n < fuel) : valueFrom base 0 (writeAux base fuel n acc) = valueFrom base n acc := by
  induction fuel generalizing n acc with
  | zero => exact absurd hfuel (Nat.not_lt_zero n)
  | succ fuel ih =>
    rw [writeAux]
    split
    · next hn => rw [valueFrom_cons (digitOf_digit hbase hn), Nat.zero_mul, Nat.zero_add]
    · next hn =>
      have hmod : n % base < base := Nat.mod_lt n (by omega)
      have hdiv : n / base < fuel :=
        Nat.lt_of_lt_of_le (Nat.div_lt_self (by omega) hlarge) (Nat.le_of_lt_succ hfuel)
      rw [ih _ _ hdiv, valueFrom_cons (digitOf_digit hbase hmod), Nat.div_add_mod']

/-- What is written denotes the number, so different numbers are written differently. -/
theorem write_injective (hlarge : 1 < base) (hbase : base ≤ 16) {m n : Nat}
    (h : write base m = write base n) : m = n := by
  have hvalue : ∀ k, valueFrom base 0 (write base k) = k := fun k =>
    valueFrom_writeAux hlarge hbase (k + 1) k [] (Nat.lt_succ_self k)
  calc
    m = valueFrom base 0 (write base m) := (hvalue m).symm
    _ = valueFrom base 0 (write base n) := by rw [h]
    _ = n := hvalue n

theorem decimal_injective {m n : Nat} (h : decimal m = decimal n) : m = n :=
  write_injective (by decide) (by decide) (String.ofList_injective h)

/-- Where two texts agree they agree up to the first place of a character and behind it. -/
theorem append_cons_cancel {stop : Char} {as bs xs ys : List Char} (ha : stop ∉ as)
    (hb : stop ∉ bs) (h : as ++ stop :: xs = bs ++ stop :: ys) : as = bs ∧ xs = ys := by
  induction as generalizing bs with
  | nil =>
    cases bs with
    | nil => exact ⟨rfl, (List.cons.inj h).2⟩
    | cons b bs => exact absurd ((List.cons.inj h).1 ▸ List.mem_cons_self) hb
  | cons a as ih =>
    cases bs with
    | nil => exact absurd ((List.cons.inj h).1 ▸ List.mem_cons_self) ha
    | cons b bs =>
      obtain ⟨rfl, htail⟩ := List.cons.inj h
      have has : stop ∉ as := mt (List.mem_cons_of_mem a) ha
      have hbs : stop ∉ bs := mt (List.mem_cons_of_mem a) hb
      obtain ⟨rfl, hrest⟩ := ih has hbs htail
      exact ⟨rfl, hrest⟩

/-- A number is told from what is written of it in front of a text that begins with no digit. -/
theorem write_append_cancel {m n : Nat} (hlarge : 1 < base) (hbase : base ≤ 16)
    {between : List Char} {stop : Char} (hhead : between.head? = some stop)
    (hstop : digitOf base stop = none) {xs ys : List Char}
    (h : write base m ++ (between ++ xs) = write base n ++ (between ++ ys)) :
    m = n ∧ xs = ys := by
  have hpos : 0 < base := Nat.lt_of_succ_lt hlarge
  obtain ⟨rest, rfl⟩ := List.head?_eq_some_iff.1 hhead
  obtain ⟨hdigits, hrest⟩ := append_cons_cancel (not_mem_write hpos hbase hstop m)
    (not_mem_write hpos hbase hstop n) h
  exact ⟨write_injective hlarge hbase hdigits, List.append_cancel_left hrest⟩

end OffsetAtlas.Text.Numeral
