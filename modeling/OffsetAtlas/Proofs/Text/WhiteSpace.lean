/-
OffsetAtlas.Proofs.Text.WhiteSpace — what trimming and splitting leave.

A text is what is left of it by trimming, between blanks (`exists_trim`), and a text with no blank
at either end is left whole whatever blanks are put around it (`trim_append`). So what is said of
texts without blanks is said of a text between blanks exactly if it is said of the trimmed text
(`padded_iff`). Splitting is the one of the standard library (`split_eq_splitOn`); the parts
together with one separator behind each are as long as the list and one separator
(`sum_length_split`).
-/
import Mathlib.Algebra.GroupWithZero.Nat
import Mathlib.Data.List.TakeWhile
import OffsetAtlas.Text.WhiteSpace

namespace OffsetAtlas.Text

/-! ## Blanks -/

/-- Visible ASCII characters are none. -/
theorem isBlank_of_visible {c : Char} (hlow : 0x21 ≤ c.toNat) (hhigh : c.toNat ≤ 0x7E) :
    isBlank c = false := by
  rw [isBlank]
  generalize c.toNat = n at hlow hhigh
  simp only [Bool.or_eq_false_iff, Bool.and_eq_false_iff, decide_eq_false_iff_not, beq_eq_false_iff_ne]
  omega

/-! ## Trimming -/

section

variable {front back text : List Char}

theorem dropWhile_of_head? {p : Char → Bool} (h : ∀ c ∈ text.head?, p c = false) :
    text.dropWhile p = text := by
  cases text with
  | nil => rfl
  | cons c cs => rw [List.dropWhile_cons, h c rfl, if_neg Bool.false_ne_true]

/-- Blanks around a text that starts and ends with none are trimmed off. -/
theorem trim_append (hfront : ∀ c ∈ front, isBlank c = true) (hback : ∀ c ∈ back, isBlank c = true)
    (hhead : ∀ c ∈ text.head?, isBlank c = false) (hlast : ∀ c ∈ text.getLast?, isBlank c = false) :
    trim (front ++ text ++ back) = text := by
  have hleft : (front ++ text ++ back).dropWhile isBlank = (text ++ back).dropWhile isBlank := by
    rw [List.append_assoc, List.dropWhile_append_of_pos hfront]
  have hback' : ∀ c ∈ back.reverse, isBlank c = true := fun c hc => hback c (List.mem_reverse.1 hc)
  rw [trim, hleft]
  cases text with
  | nil =>
    rw [List.nil_append, List.dropWhile_eq_nil_iff.2 hback]
    rfl
  | cons c cs =>
    have hkept : (c :: cs ++ back).dropWhile isBlank = c :: cs ++ back := dropWhile_of_head? hhead
    have hend : (c :: cs).reverse.dropWhile isBlank = (c :: cs).reverse :=
      dropWhile_of_head? (by rwa [List.head?_reverse])
    rw [hkept, List.reverse_append, List.dropWhile_append_of_pos hback', hend, List.reverse_reverse]

/-- A text is what trimming leaves of it, between blanks. -/
theorem exists_trim (text : List Char) : ∃ front back, text = front ++ trim text ++ back
    ∧ (∀ c ∈ front, isBlank c = true) ∧ ∀ c ∈ back, isBlank c = true := by
  refine ⟨text.takeWhile isBlank, ((text.dropWhile isBlank).reverse.takeWhile isBlank).reverse, ?_,
    fun c hc => List.mem_takeWhile_imp hc, fun c hc => List.mem_takeWhile_imp (List.mem_reverse.1 hc)⟩
  rw [trim, List.append_assoc, ← List.reverse_append, List.takeWhile_append_dropWhile,
    List.reverse_reverse, List.takeWhile_append_dropWhile]

/-- Blanks around a text of which something is said. -/
def Padded (p : List Char → Prop) (text : List Char) : Prop :=
  ∃ front core back, text = front ++ core ++ back ∧ (∀ c ∈ front, isBlank c = true)
    ∧ (∀ c ∈ back, isBlank c = true) ∧ p core

theorem padded_iff {p : List Char → Prop}
    (hsolid : ∀ core, p core → ∀ c ∈ core, isBlank c = false) :
    Padded p text ↔ p (trim text) := by
  constructor
  · rintro ⟨front, core, back, rfl, hfront, hback, hcore⟩
    have hcs := hsolid core hcore
    rwa [trim_append hfront hback (fun c hc => hcs c (List.mem_of_mem_head? hc))
      (fun c hc => hcs c (List.mem_of_mem_getLast? hc))]
  · intro hcore
    obtain ⟨front, back, htext, hfront, hback⟩ := exists_trim text
    exact ⟨front, trim text, back, htext, hfront, hback, hcore⟩

/-- Nothing is left of blanks only. -/
theorem trim_eq_nil_iff : trim text = [] ↔ ∀ c ∈ text, isBlank c = true := by
  constructor
  · intro hnil c hc
    obtain ⟨front, back, htext, hfront, hback⟩ := exists_trim text
    rw [hnil, List.append_nil] at htext
    rw [htext] at hc
    rcases List.mem_append.1 hc with hc | hc
    · exact hfront c hc
    · exact hback c hc
  · intro hblank
    have hleft : text.dropWhile isBlank = [] := List.dropWhile_eq_nil_iff.2 hblank
    rw [trim, hleft]
    rfl

end

/-! ## Splitting -/

section

variable {α : Type} [DecidableEq α]

theorem split_eq_splitOn (sep : α) (as : List α) : split sep as = as.splitOn sep := by
  induction as with
  | nil => rfl
  | cons a as ih =>
    rw [split_cons, ih, List.splitOn, List.splitOn, List.splitOnP_cons_eq_if_modifyHead]
    obtain ⟨part, rest, hparts⟩ :=
      List.exists_cons_of_ne_nil (List.splitOnP_ne_nil (fun x => x == sep) as)
    rw [hparts]
    by_cases ha : a = sep <;> simp [splitStep, ha]

/-- With one separator behind each, the parts are one separator longer than the list. -/
theorem sum_length_split (sep : α) (as : List α) :
    ((split sep as).map fun part => part.length + 1).sum = as.length + 1 := by
  induction as with
  | nil => rfl
  | cons a as ih =>
    obtain ⟨part, rest, hparts⟩ := List.exists_cons_of_ne_nil (split_ne_nil sep as)
    rw [hparts] at ih
    rw [split_cons, hparts, splitStep]
    simp only [List.map_cons, List.sum_cons, List.length_cons] at ih ⊢
    split
    · simp only [List.map_cons, List.sum_cons, List.length_nil]
      omega
    · simp only [List.map_cons, List.sum_cons, List.length_cons]
      omega

end

/-- What is put together with a separator between any two parts holds nothing else. -/
theorem mem_intercalate {α : Type} {sep a : α} {parts : List (List α)}
    (h : a ∈ [sep].intercalate parts) :
    a = sep ∨ ∃ part ∈ parts, a ∈ part := by
  induction parts with
  | nil => simp at h
  | cons first rest ih =>
    cases rest with
    | nil =>
      rw [List.intercalate_singleton] at h
      exact .inr ⟨first, List.mem_cons_self, h⟩
    | cons second rest =>
      rw [List.intercalate_cons_cons, List.mem_append, List.mem_append, List.mem_singleton] at h
      rcases h with (h | h) | h
      · exact .inr ⟨first, List.mem_cons_self, h⟩
      · exact .inl h
      · rcases ih h with h | ⟨part, hpart, h⟩
        · exact .inl h
        · exact .inr ⟨part, List.mem_cons_of_mem first hpart, h⟩

end OffsetAtlas.Text
