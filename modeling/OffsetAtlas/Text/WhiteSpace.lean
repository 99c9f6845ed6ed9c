/-
OffsetAtlas.Text.WhiteSpace — white space, trimming and splitting.

The atlas reads versions, numbers and comma-separated rows that people write by hand, so every
reader first drops white space at both ends. White space is the Unicode property `White_Space`;
core's `Char.isWhitespace` is the ASCII part of it and misses the vertical tab and the form feed.
`split` cuts a list at every occurrence of one element and always answers with at least one part.
-/

namespace OffsetAtlas.Text

/-! ## Blanks -/

/-- A code point with the Unicode property `White_Space`. -/
def isBlank (c : Char) : Bool :=
  let n := c.toNat
  (0x09 ≤ n && n ≤ 0x0D) || n == 0x20 || n == 0x85 || n == 0xA0 || n == 0x1680
    || (0x2000 ≤ n && n ≤ 0x200A) || n == 0x2028 || n == 0x2029 || n == 0x202F
    || n == 0x205F || n == 0x3000

/-- Drops the blanks at both ends. -/
def trim (cs : List Char) : List Char :=
  ((cs.dropWhile isBlank).reverse.dropWhile isBlank).reverse

/-! ## Splitting -/

/-- One more element in front of the parts found so far. -/
def splitStep {α : Type} [DecidableEq α] (sep a : α) (parts : List (List α)) : List (List α) :=
  if a = sep then [] :: parts
  else match parts with
    | [] => [[a]]
    | part :: rest => (a :: part) :: rest

/-- The parts between the occurrences of `sep`; a list without one is its own only part. -/
def split {α : Type} [DecidableEq α] (sep : α) (as : List α) : List (List α) :=
  as.foldr (splitStep sep) [[]]

@[simp] theorem split_nil {α : Type} [DecidableEq α] (sep : α) : split sep [] = [[]] := rfl

theorem split_cons {α : Type} [DecidableEq α] (sep a : α) (as : List α) :
    split sep (a :: as) = splitStep sep a (split sep as) := rfl

/-- There is always a part. -/
theorem split_ne_nil {α : Type} [DecidableEq α] (sep : α) (as : List α) : split sep as ≠ [] := by
  induction as with
  | nil => simp
  | cons a as ih =>
    rw [split_cons]
    unfold splitStep
    split
    · simp
    · split <;> simp

/-- A list without the separator is its only part. -/
theorem split_of_not_mem {α : Type} [DecidableEq α] {sep : α} {as : List α} (h : sep ∉ as) :
    split sep as = [as] := by
  induction as with
  | nil => rfl
  | cons a as ih =>
    have ha : a ≠ sep := fun he => h (he ▸ List.mem_cons_self)
    have has : sep ∉ as := fun hm => h (List.mem_cons_of_mem a hm)
    rw [split_cons, ih has, splitStep, if_neg ha]

/-- A separator ends a part and the next one starts behind it. -/
theorem split_append_cons {α : Type} [DecidableEq α] (sep : α) (as bs : List α) :
    split sep (as ++ sep :: bs) = split sep as ++ split sep bs := by
  induction as with
  | nil => simp [split_cons, splitStep]
  | cons a as ih =>
    rw [List.cons_append, split_cons, ih, split_cons]
    by_cases ha : a = sep
    · simp [splitStep, ha]
    · obtain ⟨part, rest, hparts⟩ := List.exists_cons_of_ne_nil (split_ne_nil sep as)
      simp [splitStep, ha, hparts]

end OffsetAtlas.Text
