/-
OffsetAtlas.Proofs.Text.Utf8 — text that was written as UTF-8 reads back as that text.

A character's bytes are read back as the character whatever follows them (`scan_encodeChar`), since
a first byte announces exactly the bytes behind it and its narrow ranges keep out nothing that is
ever written. So both readers give a written text back (`decodeLossy_encode`). The only character
with a zero byte is NUL, so the part of a written text in front of its first zero byte is the text
up to its first NUL (`untilNul_encode`).
-/
import Mathlib.Data.List.TakeWhile
import OffsetAtlas.Text.Utf8

namespace OffsetAtlas.Text.Utf8

/-! ## First bytes -/

deriving instance DecidableEq for Lead

theorem toNat_ofNat {n : Nat} (h : n < 0x100) : (UInt8.ofNat n).toNat = n :=
  UInt8.toNat_ofNat_of_lt' h

theorem lead?_one {n : Nat} (h : n < 0x80) : lead? (UInt8.ofNat n) = some ⟨0, n, 0x80, 0xBF⟩ := by
  have hn : (UInt8.ofNat n).toNat = n := toNat_ofNat (by omega)
  have hb : UInt8.ofNat n < 0x80 := by
    rw [UInt8.lt_iff_toNat_lt, hn]
    exact h
  rw [lead?, if_pos hb, hn]

theorem lead?_two : ∀ m < 0x20, 2 ≤ m →
    lead? (UInt8.ofNat (0xC0 + m)) = some ⟨1, m, 0x80, 0xBF⟩ := by
  decide

/-- What may follow the first of three bytes depends on it: overlong forms and surrogates are kept
out. -/
theorem lead?_three : ∀ m < 0x10, lead? (UInt8.ofNat (0xE0 + m))
    = some ⟨2, m, if m = 0 then 0xA0 else 0x80, if m = 0x0D then 0x9F else 0xBF⟩ := by
  decide

/-- And so it is with the first of four: overlong forms and too large code points are kept out. -/
theorem lead?_four : ∀ m < 5, lead? (UInt8.ofNat (0xF0 + m))
    = some ⟨3, m, if m = 0 then 0x90 else 0x80, if m = 4 then 0x8F else 0xBF⟩ := by
  decide

/-- A byte in its range contributes six bits. -/
theorem tail_cons {low high : UInt8} {m : Nat} (hlow : low.toNat ≤ 0x80 + m)
    (hhigh : 0x80 + m ≤ high.toNat) (k code : Nat) (bs : List UInt8) :
    tail (k + 1) low high code (UInt8.ofNat (0x80 + m) :: bs)
      = tail k 0x80 0xBF (code * 0x40 + m) bs := by
  have hbyte := high.toNat_lt
  have hm : (UInt8.ofNat (0x80 + m)).toNat = 0x80 + m := toNat_ofNat (by omega)
  have hin : (decide (low ≤ UInt8.ofNat (0x80 + m)) && decide (UInt8.ofNat (0x80 + m) ≤ high))
      = true := by
    simp only [Bool.and_eq_true, decide_eq_true_eq, UInt8.le_iff_toNat_le, hm]
    exact ⟨hlow, hhigh⟩
  rw [tail, if_pos hin, hm, Nat.add_sub_cancel_left]

/-! ## Characters -/

theorem toNat_valid (c : Char) : c.toNat < 0xD800 ∨ 0xDFFF < c.toNat ∧ c.toNat < 0x110000 :=
  c.valid

theorem low_le {p : Prop} [Decidable p] {low : UInt8} {m : Nat} (h : p → low.toNat ≤ 0x80 + m) :
    (if p then low else 0x80).toNat ≤ 0x80 + m := by
  split
  · next hp => exact h hp
  · exact Nat.le_add_right 0x80 m

theorem le_high {p : Prop} [Decidable p] {high : UInt8} {m : Nat} (hm : m < 0x40)
    (h : p → 0x80 + m ≤ high.toNat) : 0x80 + m ≤ (if p then high else 0xBF).toNat := by
  split
  · next hp => exact h hp
  · have : (0xBF : UInt8).toNat = 0xBF := rfl
    omega

/-- A character is read back from its bytes. -/
theorem next_encodeChar (c : Char) (rest : List UInt8) :
    ∃ b bs, encodeChar c = b :: bs ∧ next b (bs ++ rest) = (some c, rest) := by
  have hvalid := toNat_valid c
  have hchar : Char.ofNat c.toNat = c := Char.ofNat_toNat c
  unfold encodeChar
  generalize c.toNat = n at hvalid hchar
  simp only
  split
  · next h1 =>
    refine ⟨_, _, rfl, ?_⟩
    rw [next, lead?_one h1]
    simp only [List.nil_append, tail, Option.map_some, hchar]
  · split
    · next h1 h2 =>
      refine ⟨_, _, rfl, ?_⟩
      have hcode : n / 0x40 * 0x40 + n % 0x40 = n := by omega
      rw [next, lead?_two (n / 0x40) (by omega) (by omega)]
      simp only [List.cons_append, List.nil_append]
      rw [tail_cons (Nat.le_add_right 0x80 _) (by simp; omega), tail, hcode]
      simp only [Option.map_some, hchar]
    · split
      · next h1 h2 h3 =>
        refine ⟨_, _, rfl, ?_⟩
        have hcode : (n / 0x1000 * 0x40 + n / 0x40 % 0x40) * 0x40 + n % 0x40 = n := by omega
        rw [next, lead?_three (n / 0x1000) (by omega)]
        simp only [List.cons_append, List.nil_append]
        rw [tail_cons (low_le fun h0 => by simp; omega)
          (le_high (by omega) fun h0 => by simp; omega),
          tail_cons (Nat.le_add_right 0x80 _) (by simp; omega), tail, hcode]
        simp only [Option.map_some, hchar]
      · next h1 h2 h3 =>
        refine ⟨_, _, rfl, ?_⟩
        have hcode : ((n / 0x40000 * 0x40 + n / 0x1000 % 0x40) * 0x40 + n / 0x40 % 0x40) * 0x40
            + n % 0x40 = n := by omega
        rw [next, lead?_four (n / 0x40000) (by omega)]
        simp only [List.cons_append, List.nil_append]
        rw [tail_cons (low_le fun h0 => by simp; omega)
          (le_high (by omega) fun h0 => by simp; omega),
          tail_cons (Nat.le_add_right 0x80 _) (by simp; omega),
          tail_cons (Nat.le_add_right 0x80 _) (by simp; omega), tail, hcode]
        simp only [Option.map_some, hchar]

theorem scan_encodeChar (c : Char) (rest : List UInt8) :
    scan (encodeChar c ++ rest) = some c :: scan rest := by
  obtain ⟨b, bs, hbytes, hnext⟩ := next_encodeChar c rest
  rw [hbytes, List.cons_append, scan, hnext]

/-! ## Texts -/

theorem scan_flatMap_encodeChar (cs : List Char) :
    scan (cs.flatMap encodeChar) = cs.map some := by
  induction cs with
  | nil => simp [scan]
  | cons c cs ih => rw [List.flatMap_cons, scan_encodeChar, ih, List.map_cons]

theorem decodeLossy_flatMap_encodeChar (cs : List Char) :
    decodeLossy (cs.flatMap encodeChar) = cs := by
  rw [decodeLossy, scan_flatMap_encodeChar]
  simp [Function.comp_def]

/-! ## Well-formed bytes -/

/-- These bytes are written as first bytes of nothing. -/
theorem lead?_none : ∀ n < 0x100, 0x80 ≤ n ∧ n < 0xC2 ∨ 0xF5 ≤ n →
    lead? (UInt8.ofNat n) = none := by
  decide +kernel

/-- A byte that was taken was in its range. -/
theorem tail_eq_some {low high : UInt8} {k code n : Nat} {bs rest : List UInt8}
    (hlow : 0x80 ≤ low.toNat) (hhigh : high.toNat < 0xC0)
    (h : tail (k + 1) low high code bs = (some n, rest)) :
    ∃ m < 0x40, ∃ bs', bs = UInt8.ofNat (0x80 + m) :: bs' ∧ low.toNat ≤ 0x80 + m
      ∧ 0x80 + m ≤ high.toNat ∧ tail k 0x80 0xBF (code * 0x40 + m) bs' = (some n, rest) := by
  cases bs with
  | nil => cases h
  | cons b bs =>
    rw [tail] at h
    split at h
    · next hin =>
      rw [Bool.and_eq_true, decide_eq_true_eq, decide_eq_true_eq, UInt8.le_iff_toNat_le,
        UInt8.le_iff_toNat_le] at hin
      have hm : 0x80 + (b.toNat - 0x80) = b.toNat := by omega
      refine ⟨b.toNat - 0x80, by omega, bs, ?_, by omega, by omega, h⟩
      rw [hm, UInt8.ofNat_toNat]
    · cases h

/-- The bytes that follow a first byte are often in the full range. -/
theorem tail_eq_some_of_full {k code n : Nat} {bs rest : List UInt8}
    (h : tail (k + 1) 0x80 0xBF code bs = (some n, rest)) :
    ∃ m < 0x40, ∃ bs', bs = UInt8.ofNat (0x80 + m) :: bs'
      ∧ tail k 0x80 0xBF (code * 0x40 + m) bs' = (some n, rest) := by
  obtain ⟨m, hm, bs', hbs, -, -, htail⟩ := tail_eq_some (by decide) (by decide) h
  exact ⟨m, hm, bs', hbs, htail⟩

theorem encodeChar_ofNat {n : Nat} (h : n.isValidChar) :
    encodeChar (Char.ofNat n) =
      if n < 0x80 then [UInt8.ofNat n]
      else if n < 0x800 then [UInt8.ofNat (0xC0 + n / 0x40), UInt8.ofNat (0x80 + n % 0x40)]
      else if n < 0x10000 then
        [UInt8.ofNat (0xE0 + n / 0x1000), UInt8.ofNat (0x80 + n / 0x40 % 0x40),
          UInt8.ofNat (0x80 + n % 0x40)]
      else
        [UInt8.ofNat (0xF0 + n / 0x40000), UInt8.ofNat (0x80 + n / 0x1000 % 0x40),
          UInt8.ofNat (0x80 + n / 0x40 % 0x40), UInt8.ofNat (0x80 + n % 0x40)] := by
  have hn : (Char.ofNat n).toNat = n := by
    rw [Char.ofNat, dif_pos h]
    rfl
  simp only [encodeChar, hn]

/-! The same, for a code point that is given by its digits to base 64. -/

theorem encodeChar_two {m i : Nat} (h2 : 2 ≤ m) (hm : m < 0x20) (hi : i < 0x40) :
    encodeChar (Char.ofNat (m * 0x40 + i)) = [UInt8.ofNat (0xC0 + m), UInt8.ofNat (0x80 + i)] := by
  have hhead : (m * 0x40 + i) / 0x40 = m := by omega
  have hlast : (m * 0x40 + i) % 0x40 = i := by omega
  rw [encodeChar_ofNat (.inl (by omega)), if_neg (by omega), if_pos (by omega), hhead, hlast]

theorem encodeChar_three {m i j : Nat} (hm : m < 0x10) (hi : i < 0x40) (hj : j < 0x40)
    (hlow : m = 0 → 0x20 ≤ i) (hhigh : m = 0x0D → i < 0x20) :
    encodeChar (Char.ofNat ((m * 0x40 + i) * 0x40 + j)) =
      [UInt8.ofNat (0xE0 + m), UInt8.ofNat (0x80 + i), UInt8.ofNat (0x80 + j)] := by
  have hvalid : ((m * 0x40 + i) * 0x40 + j).isValidChar := by
    unfold Nat.isValidChar
    omega
  have hhead : ((m * 0x40 + i) * 0x40 + j) / 0x1000 = m := by omega
  have hsecond : ((m * 0x40 + i) * 0x40 + j) / 0x40 % 0x40 = i := by omega
  have hlast : ((m * 0x40 + i) * 0x40 + j) % 0x40 = j := by omega
  rw [encodeChar_ofNat hvalid, if_neg (by omega), if_neg (by omega), if_pos (by omega), hhead,
    hsecond, hlast]

theorem encodeChar_four {m i j k : Nat} (hm : m < 5) (hi : i < 0x40) (hj : j < 0x40) (hk : k < 0x40)
    (hlow : m = 0 → 0x10 ≤ i) (hhigh : m = 4 → i < 0x10) :
    encodeChar (Char.ofNat (((m * 0x40 + i) * 0x40 + j) * 0x40 + k)) =
      [UInt8.ofNat (0xF0 + m), UInt8.ofNat (0x80 + i), UInt8.ofNat (0x80 + j),
        UInt8.ofNat (0x80 + k)] := by
  have hvalid : (((m * 0x40 + i) * 0x40 + j) * 0x40 + k).isValidChar := by
    unfold Nat.isValidChar
    omega
  have hhead : (((m * 0x40 + i) * 0x40 + j) * 0x40 + k) / 0x40000 = m := by omega
  have hsecond : (((m * 0x40 + i) * 0x40 + j) * 0x40 + k) / 0x1000 % 0x40 = i := by omega
  have hthird : (((m * 0x40 + i) * 0x40 + j) * 0x40 + k) / 0x40 % 0x40 = j := by omega
  have hlast : (((m * 0x40 + i) * 0x40 + j) * 0x40 + k) % 0x40 = k := by omega
  rw [encodeChar_ofNat hvalid, if_neg (by omega), if_neg (by omega), if_neg (by omega), hhead,
    hsecond, hthird, hlast]

/-- What follows a first byte gives the code point. -/
theorem next_eq_some {b low high : UInt8} {bs rest : List UInt8} {c : Char} {tails bits : Nat}
    (hlead : lead? b = some ⟨tails, bits, low, high⟩) (h : next b bs = (some c, rest)) :
    ∃ n, tail tails low high bits bs = (some n, rest) ∧ Char.ofNat n = c := by
  rw [next, hlead, Prod.mk.injEq] at h
  obtain ⟨n, hn, hc⟩ := Option.map_eq_some_iff.1 h.1
  exact ⟨n, Prod.ext hn h.2, hc⟩

/-- A first byte is alone, or the first of two, three or four bytes, or none. -/
theorem firstByte_cases {n : Nat} (h : n < 0x100) :
    n < 0x80 ∨ (∃ m < 0x20, 2 ≤ m ∧ n = 0xC0 + m) ∨ (∃ m < 0x10, n = 0xE0 + m)
      ∨ (∃ m < 5, n = 0xF0 + m) ∨ (0x80 ≤ n ∧ n < 0xC2 ∨ 0xF5 ≤ n) := by
  by_cases h1 : n < 0x80
  · exact .inl h1
  by_cases h2 : 0xC2 ≤ n ∧ n < 0xE0
  · exact .inr (.inl ⟨n - 0xC0, by omega, by omega, by omega⟩)
  by_cases h3 : 0xE0 ≤ n ∧ n < 0xF0
  · exact .inr (.inr (.inl ⟨n - 0xE0, by omega, by omega⟩))
  by_cases h4 : 0xF0 ≤ n ∧ n < 0xF5
  · exact .inr (.inr (.inr (.inl ⟨n - 0xF0, by omega, by omega⟩)))
  · exact .inr (.inr (.inr (.inr (by omega))))

/-- A character that was read is written as the bytes that it was read from. The narrow ranges say
that the code point is none that is written in fewer bytes, and no surrogate. -/
theorem encodeChar_of_next {b : UInt8} {bs rest : List UInt8} {c : Char}
    (h : next b bs = (some c, rest)) : encodeChar c ++ rest = b :: bs := by
  obtain ⟨n, hn, rfl⟩ : ∃ n < 0x100, b = UInt8.ofNat n :=
    ⟨b.toNat, b.toNat_lt, UInt8.ofNat_toNat.symm⟩
  rcases firstByte_cases hn with h1 | ⟨m, hm, h2, rfl⟩ | ⟨m, hm, rfl⟩ | ⟨m, hm, rfl⟩ | hnone
  · obtain ⟨code, htail, rfl⟩ := next_eq_some (lead?_one h1) h
    cases htail
    rw [encodeChar_ofNat (.inl (by omega)), if_pos h1]
    rfl
  · obtain ⟨code, htail, rfl⟩ := next_eq_some (lead?_two m hm h2) h
    obtain ⟨i, hi, _, rfl, hend⟩ := tail_eq_some_of_full htail
    cases hend
    rw [encodeChar_two h2 hm hi]
    rfl
  · obtain ⟨code, htail, rfl⟩ := next_eq_some (lead?_three m hm) h
    obtain ⟨i, hi, _, rfl, hlow, hhigh, hsecond⟩ :=
      tail_eq_some (by split <;> decide) (by split <;> decide) htail
    obtain ⟨j, hj, _, rfl, hend⟩ := tail_eq_some_of_full hsecond
    cases hend
    have hlow : m = 0 → 0x20 ≤ i := by
      rintro rfl
      exact Nat.le_of_add_le_add_left hlow
    have hhigh : m = 0x0D → i < 0x20 := by
      rintro rfl
      exact Nat.lt_of_add_lt_add_left (Nat.lt_succ_of_le hhigh)
    rw [encodeChar_three hm hi hj hlow hhigh]
    rfl
  · obtain ⟨code, htail, rfl⟩ := next_eq_some (lead?_four m hm) h
    obtain ⟨i, hi, _, rfl, hlow, hhigh, hsecond⟩ :=
      tail_eq_some (by split <;> decide) (by split <;> decide) htail
    obtain ⟨j, hj, _, rfl, hthird⟩ := tail_eq_some_of_full hsecond
    obtain ⟨k, hk, _, rfl, hend⟩ := tail_eq_some_of_full hthird
    cases hend
    have hlow : m = 0 → 0x10 ≤ i := by
      rintro rfl
      exact Nat.le_of_add_le_add_left hlow
    have hhigh : m = 4 → i < 0x10 := by
      rintro rfl
      exact Nat.lt_of_add_lt_add_left (Nat.lt_succ_of_le hhigh)
    rw [encodeChar_four hm hi hj hk hlow hhigh]
    rfl
  · rw [next, lead?_none n hn hnone] at h
    cases h

theorem flatMap_encodeChar_of_scan {bs : List UInt8} {cs : List Char} (h : scan bs = cs.map some) :
    cs.flatMap encodeChar = bs := by
  induction cs generalizing bs with
  | nil =>
    cases bs with
    | nil => rfl
    | cons b bs =>
      rw [scan] at h
      cases h
  | cons c cs ih =>
    cases bs with
    | nil =>
      rw [scan] at h
      cases h
    | cons b bs =>
      rw [scan, List.map_cons, List.cons.injEq] at h
      have hnext : next b bs = (some c, (next b bs).2) := Prod.ext h.1 rfl
      rw [List.flatMap_cons, ih h.2, encodeChar_of_next hnext]

theorem mapM_id_eq_some_iff {os : List (Option Char)} {cs : List Char} :
    os.mapM id = some cs ↔ os = cs.map some := by
  induction os generalizing cs with
  | nil => cases cs <;> simp
  | cons o os ih =>
    rw [List.mapM_cons]
    cases o with
    | none => cases cs <;> simp
    | some c =>
      constructor
      · intro h
        obtain ⟨d, hd, h⟩ := Option.bind_eq_some_iff.1 h
        obtain ⟨ds, hds, hcs⟩ := Option.bind_eq_some_iff.1 h
        cases hd
        cases hcs
        rw [ih.1 hds, List.map_cons]
      · intro h
        cases cs with
        | nil => cases h
        | cons d ds =>
          obtain ⟨hc, hos⟩ := List.cons.inj h
          cases hc
          rw [ih.2 hos]
          rfl

/-- **Exactly what is written as text is read as text.** -/
theorem decode?_eq_some_iff {bs : List UInt8} {cs : List Char} :
    decode? bs = some cs ↔ bs = cs.flatMap encodeChar := by
  rw [decode?, mapM_id_eq_some_iff]
  constructor
  · exact fun h => (flatMap_encodeChar_of_scan h).symm
  · rintro rfl
    exact scan_flatMap_encodeChar cs

/-- What is written is what the standard library writes. -/
theorem encodeChar_eq (c : Char) : encodeChar c = String.utf8EncodeChar c := by
  have hvalid := toNat_valid c
  have hval : c.val.toNat = c.toNat := rfl
  simp only [encodeChar, String.utf8EncodeChar, hval]
  generalize c.toNat = n at hvalid
  by_cases h1 : n < 0x80
  · rw [if_pos h1, if_pos (show n ≤ 127 by omega)]
  rw [if_neg h1, if_neg (show ¬ n ≤ 127 by omega)]
  by_cases h2 : n < 0x800
  · rw [if_pos h2, if_pos (show n ≤ 2047 by omega),
      show n / 64 % 32 + 192 = 0xC0 + n / 0x40 by omega, Nat.add_comm (n % 64)]
  rw [if_neg h2, if_neg (show ¬ n ≤ 2047 by omega)]
  by_cases h3 : n < 0x10000
  · rw [if_pos h3, if_pos (show n ≤ 65535 by omega),
      show n / 4096 % 16 + 224 = 0xE0 + n / 0x1000 by omega, Nat.add_comm (n / 64 % 64),
      Nat.add_comm (n % 64)]
  · rw [if_neg h3, if_neg (show ¬ n ≤ 65535 by omega),
      show n / 262144 % 8 + 240 = 0xF0 + n / 0x40000 by omega, Nat.add_comm (n / 4096 % 64),
      Nat.add_comm (n / 64 % 64), Nat.add_comm (n % 64)]

/-- NUL is the zero byte. -/
theorem encodeChar_nul : encodeChar '\x00' = [0] := rfl

/-- No other character has a zero byte. -/
theorem ne_zero_of_mem_encodeChar {c : Char} (hc : c ≠ '\x00') {b : UInt8}
    (hb : b ∈ encodeChar c) : b ≠ 0 := by
  have hpos : c.toNat ≠ 0 := fun h => hc (Char.toNat_inj.1 h)
  have hvalid := toNat_valid c
  unfold encodeChar at hb
  generalize c.toNat = n at hpos hvalid hb
  have hne : ∀ {m}, m < 0x100 → m ≠ 0 → UInt8.ofNat m ≠ 0 := by
    intro m hm h0 he
    have := toNat_ofNat hm
    rw [he] at this
    exact h0 this.symm
  simp only at hb
  split at hb
  · rw [List.mem_singleton.1 hb]
    exact hne (by omega) hpos
  · split at hb
    · simp only [List.mem_cons, List.not_mem_nil, or_false] at hb
      rcases hb with rfl | rfl
      · exact hne (by omega) (by omega)
      · exact hne (by omega) (by omega)
    · split at hb
      · simp only [List.mem_cons, List.not_mem_nil, or_false] at hb
        rcases hb with rfl | rfl | rfl
        · exact hne (by omega) (by omega)
        · exact hne (by omega) (by omega)
        · exact hne (by omega) (by omega)
      · simp only [List.mem_cons, List.not_mem_nil, or_false] at hb
        rcases hb with rfl | rfl | rfl | rfl
        · exact hne (by omega) (by omega)
        · exact hne (by omega) (by omega)
        · exact hne (by omega) (by omega)
        · exact hne (by omega) (by omega)

/-- The text in front of the first NUL. -/
def upToNul (s : String) : String :=
  String.ofList (s.toList.takeWhile (· ≠ '\x00'))

theorem upToNul_eq_self_iff {s : String} : upToNul s = s ↔ '\x00' ∉ s.toList := by
  rw [← String.toList_inj, upToNul, String.toList_ofList, List.takeWhile_eq_self_iff]
  simp only [decide_eq_true_eq]
  constructor
  · exact fun h hmem => h _ hmem rfl
  · rintro h c hc rfl
    exact h hc

theorem takeWhile_flatMap_encodeChar (cs : List Char) (padding : Nat) :
    (cs.flatMap encodeChar ++ List.replicate padding 0).takeWhile (· ≠ 0)
      = (cs.takeWhile (· ≠ '\x00')).flatMap encodeChar := by
  induction cs with
  | nil => cases padding <;> simp [List.replicate_succ]
  | cons c cs ih =>
    rw [List.flatMap_cons, List.append_assoc]
    by_cases hc : c = '\x00'
    · subst hc
      rw [encodeChar_nul]
      simp
    · rw [List.takeWhile_append_of_pos fun b hb => decide_eq_true (ne_zero_of_mem_encodeChar hc hb),
        ih, List.takeWhile_cons_of_pos (by simpa using hc), List.flatMap_cons]

/-- **A name's field reads back as the name up to its first NUL**, whatever zeros fill it up. -/
theorem untilNul_encode (s : String) (padding : Nat) :
    untilNul (encode s ++ List.replicate padding 0) = upToNul s := by
  rw [untilNul, encode, takeWhile_flatMap_encodeChar, decodeLossy_flatMap_encodeChar, upToNul]

/-! ## Lengths -/

theorem length_encodeChar (c : Char) : (encodeChar c).length = c.utf8Size := by
  have h1 : c.val ≤ 0x7F ↔ c.toNat < 0x80 := UInt32.le_iff_toNat_le.trans Nat.lt_succ_iff.symm
  have h2 : c.val ≤ 0x7FF ↔ c.toNat < 0x800 := UInt32.le_iff_toNat_le.trans Nat.lt_succ_iff.symm
  have h3 : c.val ≤ 0xFFFF ↔ c.toNat < 0x10000 :=
    UInt32.le_iff_toNat_le.trans Nat.lt_succ_iff.symm
  have hsize : c.utf8Size = if c.val ≤ 0x7F then 1 else if c.val ≤ 0x7FF then 2
      else if c.val ≤ 0xFFFF then 3 else 4 := rfl
  simp only [encodeChar, hsize, h1, h2, h3]
  split
  · rfl
  · split
    · rfl
    · split
      · rfl
      · rfl

theorem length_encode (s : String) : (encode s).length = s.utf8ByteSize := by
  have key : ∀ cs : List Char,
      (cs.flatMap encodeChar).length = (String.ofList cs).utf8ByteSize := by
    intro cs
    induction cs with
    | nil => rfl
    | cons c cs ih =>
      rw [← List.singleton_append, String.ofList_append, String.utf8ByteSize_append,
        ← String.singleton_eq_ofList, String.utf8ByteSize_singleton, List.singleton_append,
        List.flatMap_cons, List.length_append, length_encodeChar, ih]
  rw [encode, key, String.ofList_toList]

end OffsetAtlas.Text.Utf8
