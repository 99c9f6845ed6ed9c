/-
OffsetAtlas.Proofs.Csv.Grammar — what a line has to look like to be a row.

A line is taken apart step by step: its bytes are decoded, the text is cut at a comma, the fields
are trimmed and read, and the first step that fails decides. Here the same is said without steps. A
row is the UTF-8 form of two fields with a comma between them, and a field is a decimal number
between blanks (`Lists`); a line is skipped if it starts with the comment sign or is the form of
blanks, and anything else is bad. The three exclude each other, and main statement is that they are
what a line is judged as (`judged_iff`).
-/
import OffsetAtlas.Entry
import OffsetAtlas.Csv.Row
import OffsetAtlas.Proofs.Text.Numeral
import OffsetAtlas.Proofs.Text.Utf8
import OffsetAtlas.Proofs.Text.WhiteSpace

namespace OffsetAtlas.Csv

open Text

variable {line : List UInt8} {text left right : List Char} {e : Entry}

/-! ## Text -/

/-- The UTF-8 form of a text. -/
def utf8 (text : List Char) : List UInt8 :=
  text.flatMap String.utf8EncodeChar

theorem decode?_eq_some_iff_utf8 : Utf8.decode? line = some text ↔ line = utf8 text := by
  rw [Utf8.decode?_eq_some_iff, funext Utf8.encodeChar_eq]
  rfl

/-- The comment sign is the first byte of no other character. -/
theorem head?_utf8_cons {c : Char} {cs : List Char} :
    (utf8 (c :: cs)).head? = some hash ↔ c = '#' := by
  have hvalid := Utf8.toNat_valid c
  have hsign : c = '#' ↔ c.toNat = 0x23 := Char.toNat_inj.symm
  have hfirst : ∀ {n}, n < 0x100 → (UInt8.ofNat n = hash ↔ n = 0x23) := fun hn => by
    rw [← UInt8.toNat_inj, Utf8.toNat_ofNat hn]
    rfl
  rw [utf8, List.flatMap_cons, ← Utf8.encodeChar_eq, Utf8.encodeChar, hsign]
  generalize c.toNat = n at hvalid
  split
  · rw [List.cons_append, List.head?_cons, Option.some.injEq, hfirst (by omega)]
  · split
    · rw [List.cons_append, List.head?_cons, Option.some.injEq, hfirst (by omega)]
      omega
    · split
      · rw [List.cons_append, List.head?_cons, Option.some.injEq, hfirst (by omega)]
        omega
      · rw [List.cons_append, List.head?_cons, Option.some.injEq, hfirst (by omega)]
        omega

theorem length_le_utf8 (text : List Char) : text.length ≤ (utf8 text).length := by
  induction text with
  | nil => exact Nat.le_refl 0
  | cons c cs ih =>
    have hc : 1 ≤ (String.utf8EncodeChar c).length := by
      rw [← Utf8.encodeChar_eq, Utf8.length_encodeChar]
      exact Char.utf8Size_pos c
    rw [utf8, List.flatMap_cons, List.length_append, List.length_cons]
    rw [utf8] at ih
    omega

/-! ## Fields -/

/-- A decimal number between blanks. -/
def Field (text : List Char) (n : UInt64) : Prop :=
  ∃ front numeral back, text = front ++ numeral ++ back ∧ (∀ c ∈ front, isBlank c = true)
    ∧ (∀ c ∈ back, isBlank c = true) ∧ Numeral.Denotes numeral n.toNat

/-- A field is trimmed down to its number. -/
theorem field_iff_denotes {n : UInt64} : Field text n ↔ Numeral.Denotes (trim text) n.toNat :=
  padded_iff fun _ h => Numeral.isBlank_of_denotes h

theorem field_iff {n : UInt64} : Field text n ↔ number (trim text) = .ok n.toNat := by
  rw [number, Numeral.read_eq_ok_iff (by decide), field_iff_denotes]
  exact (and_iff_left n.toNat_lt).symm

theorem number_lt {n : Nat} (h : number text = .ok n) : n < UInt64.size :=
  ((Numeral.read_eq_ok_iff (by decide)).1 h).2

theorem Field.trim_ne_nil {n : UInt64} (h : Field text n) : trim text ≠ [] :=
  (field_iff_denotes.1 h).ne_nil

/-- A field starts with a blank, a sign or a digit. -/
theorem Field.head?_ne {n : UInt64} (h : Field text n) : ∃ c cs, text = c :: cs ∧ c ≠ '#' := by
  obtain ⟨front, numeral, back, rfl, hfront, -, hdenotes⟩ := h
  cases front with
  | cons c cs =>
    refine ⟨c, _, rfl, ?_⟩
    rintro rfl
    exact absurd (hfront '#' List.mem_cons_self) (by decide)
  | nil =>
    obtain ⟨digits, hnumeral, hne, hdigits, -⟩ := hdenotes
    obtain ⟨d, ds, rfl⟩ := List.exists_cons_of_ne_nil hne
    rcases hnumeral with rfl | rfl
    · refine ⟨d, _, rfl, ?_⟩
      rintro rfl
      exact absurd (hdigits '#' List.mem_cons_self) (by decide)
    · exact ⟨'+', _, rfl, by decide⟩

/-! ## Rows -/

theorem atComma_eq_some_iff :
    atComma text = some (left, right) ↔ text = left ++ ',' :: right ∧ ',' ∉ left := by
  have hpos : ∀ l : List Char, ',' ∉ l → ∀ c ∈ l, decide (c ≠ ',') = true := fun l hl c hc =>
    decide_eq_true fun heq => hl (heq ▸ hc)
  constructor
  · intro h
    unfold atComma at h
    split at h
    · next hmem =>
      cases h
      have hfront : ',' ∉ text.takeWhile (· ≠ ',') := fun hc =>
        absurd (List.mem_takeWhile_imp hc) (by decide)
      refine ⟨?_, hfront⟩
      have hsplit := List.takeWhile_append_dropWhile (p := fun c => decide (c ≠ ',')) (l := text)
      cases hdrop : text.dropWhile (· ≠ ',') with
      | nil =>
        rw [hdrop, List.append_nil] at hsplit
        rw [hsplit] at hfront
        exact absurd hmem hfront
      | cons c cs =>
        have hc := List.head_dropWhile_not (fun c => decide (c ≠ ',')) (by rw [hdrop]; simp)
        simp only [hdrop, List.head_cons, decide_eq_false_iff_not, Decidable.not_not] at hc
        rw [hdrop, hc] at hsplit
        exact hsplit.symm
    · cases h
  · rintro ⟨rfl, hleft⟩
    rw [atComma, if_pos (by simp), List.takeWhile_append_of_pos (hpos left hleft),
      List.dropWhile_append_of_pos (hpos left hleft)]
    simp

/-- A line with two numbers, one in front of its first comma and one behind it. -/
def Lists (line : List UInt8) (e : Entry) : Prop :=
  ∃ left right, line = utf8 (left ++ ',' :: right) ∧ ',' ∉ left ∧ Field left e.id
    ∧ Field right e.offset

theorem ofText_eq_good_iff {id offset : UInt64} :
    Row.ofText text = .good id offset
      ↔ ∃ left right, text = left ++ ',' :: right ∧ ',' ∉ left ∧ Field left id
        ∧ Field right offset := by
  constructor
  · intro h
    unfold Row.ofText at h
    split at h
    · cases h
    · next left right hcomma =>
      simp only at h
      split at h
      · cases h
      · split at h
        · next n m hid hoffset =>
          cases h
          obtain ⟨htext, hleft⟩ := atComma_eq_some_iff.1 hcomma
          refine ⟨left, right, htext, hleft, field_iff.2 ?_, field_iff.2 ?_⟩
          · rw [hid, UInt64.toNat_ofNat_of_lt' (number_lt hid)]
          · rw [hoffset, UInt64.toNat_ofNat_of_lt' (number_lt hoffset)]
        · cases h
  · rintro ⟨left, right, htext, hleft, hid, hoffset⟩
    rw [Row.ofText, atComma_eq_some_iff.2 ⟨htext, hleft⟩]
    simp only [field_iff.1 hid, field_iff.1 hoffset, hid.trim_ne_nil, hoffset.trim_ne_nil,
      or_self, if_false, UInt64.ofNat_toNat]

/-! ## Lines -/

/-- A line that starts with the comment sign. -/
def Comment (line : List UInt8) : Prop :=
  line.head? = some hash

/-- A line of blanks. -/
def Blank (line : List UInt8) : Prop :=
  ∃ text, line = utf8 text ∧ ∀ c ∈ text, isBlank c = true

/-- What a line counts as. -/
inductive Verdict where
  | skipped
  | good (e : Entry)
  | bad
  deriving DecidableEq

/-- What a line counts as, by its form. -/
inductive Judged (line : List UInt8) : Verdict → Prop where
  | comment (h : Comment line) : Judged line .skipped
  | blank (h : Blank line) : Judged line .skipped
  | good {e : Entry} (h : Lists line e) : Judged line (.good e)
  | bad (hcomment : ¬ Comment line) (hblank : ¬ Blank line) (hlists : ∀ e, ¬ Lists line e) :
    Judged line .bad

/-- What a row counts as. -/
def Row.verdict : Row → Verdict
  | .skipped => .skipped
  | .good id offset => .good ⟨id, offset⟩
  | .bad _ => .bad

theorem ofLine_of_text (hline : ¬ Comment line) (htext : line = utf8 text) :
    Row.ofLine line = if trim text = [] then .skipped else Row.ofText text := by
  have hsign : ¬ line.head? = some hash := hline
  rw [Row.ofLine, if_neg hsign, decode?_eq_some_iff_utf8.2 htext]

/-- Exactly comments and blanks are skipped. -/
theorem ofLine_eq_skipped_iff : Row.ofLine line = .skipped ↔ Comment line ∨ Blank line := by
  have hbad : ∀ text, Row.ofText text ≠ .skipped := by
    intro text h
    unfold Row.ofText at h
    split at h
    · cases h
    · simp only at h
      split at h
      · cases h
      · split at h <;> cases h
  by_cases hcomment : Comment line
  · exact ⟨fun _ => .inl hcomment, fun _ => if_pos hcomment⟩
  constructor
  · intro h
    have hsign : ¬ line.head? = some hash := hcomment
    rw [Row.ofLine, if_neg hsign] at h
    split at h
    · cases h
    · next text hdecode =>
      split at h
      · next htrim =>
        exact .inr ⟨text, decode?_eq_some_iff_utf8.1 hdecode, trim_eq_nil_iff.1 htrim⟩
      · exact absurd h (hbad text)
  · rintro (h | ⟨text, htext, hblank⟩)
    · exact absurd h hcomment
    · rw [ofLine_of_text hcomment htext, if_pos (trim_eq_nil_iff.2 hblank)]

/-- Exactly the lines with two numbers are good. -/
theorem ofLine_eq_good_iff : Row.ofLine line = .good e.id e.offset ↔ Lists line e := by
  constructor
  · intro h
    unfold Row.ofLine at h
    split at h
    · cases h
    · split at h
      · cases h
      · next text hdecode =>
        split at h
        · cases h
        · obtain ⟨left, right, rfl, hrest⟩ := ofText_eq_good_iff.1 h
          exact ⟨left, right, decode?_eq_some_iff_utf8.1 hdecode, hrest⟩
  · rintro ⟨left, right, hline, hleft, hid, hoffset⟩
    have hcomment : ¬ Comment line := by
      obtain ⟨c, cs, rfl, hc⟩ := hid.head?_ne
      rw [Comment, hline, List.cons_append, head?_utf8_cons]
      exact hc
    have hkept : trim (left ++ ',' :: right) ≠ [] := fun hnil =>
      absurd (trim_eq_nil_iff.1 hnil ',' (by simp)) (by decide)
    rw [ofLine_of_text hcomment hline, if_neg hkept]
    exact ofText_eq_good_iff.2 ⟨left, right, rfl, hleft, hid, hoffset⟩

/-- **A line is judged by its form.** -/
theorem judged_iff {v : Verdict} : Judged line v ↔ (Row.ofLine line).verdict = v := by
  constructor
  · intro h
    cases h with
    | comment h => rw [ofLine_eq_skipped_iff.2 (.inl h), Row.verdict]
    | blank h => rw [ofLine_eq_skipped_iff.2 (.inr h), Row.verdict]
    | good h => rw [ofLine_eq_good_iff.2 h, Row.verdict]
    | bad hcomment hblank hlists =>
      cases hrow : Row.ofLine line with
      | skipped => exact absurd (ofLine_eq_skipped_iff.1 hrow) (by simp [hcomment, hblank])
      | good id offset => exact absurd (ofLine_eq_good_iff (e := ⟨id, offset⟩).1 hrow) (hlists _)
      | bad fault => rfl
  · rintro rfl
    cases hrow : Row.ofLine line with
    | skipped =>
      rcases ofLine_eq_skipped_iff.1 hrow with h | h
      · exact .comment h
      · exact .blank h
    | good id offset => exact .good (ofLine_eq_good_iff (e := ⟨id, offset⟩).1 hrow)
    | bad fault =>
      refine .bad (fun h => ?_) (fun h => ?_) fun e h => ?_
      · rw [ofLine_eq_skipped_iff.2 (.inl h)] at hrow
        cases hrow
      · rw [ofLine_eq_skipped_iff.2 (.inr h)] at hrow
        cases hrow
      · rw [ofLine_eq_good_iff.2 h] at hrow
        cases hrow

end OffsetAtlas.Csv
