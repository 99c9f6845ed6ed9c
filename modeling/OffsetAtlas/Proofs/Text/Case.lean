/-
OffsetAtlas.Proofs.Text.Case — texts that differ in the case of ASCII letters.

Texts are the same but for case if they fold to the same lower-case text. Where one of the two is
known to be in upper case, folding the other one to upper case tells the same
(`map_toUpper_eq_iff`); and a digest is in upper case whatever its bytes are
(`map_toUpper_hexBytes`).
-/
import OffsetAtlas.Text.Numeral

namespace OffsetAtlas.Text

/-! ## Letters -/

theorem toNat_toLower (c : Char) :
    c.toLower.toNat = if 65 ≤ c.toNat ∧ c.toNat ≤ 90 then c.toNat + 32 else c.toNat := by
  have hrange : c.val ≥ 'A'.val ∧ c.val ≤ 'Z'.val ↔ 65 ≤ c.toNat ∧ c.toNat ≤ 90 := by
    simp [UInt32.le_iff_toNat_le]
  split
  · next h =>
    have hsum : (c.val + ('a'.val - 'A'.val)).toNat = (c.toNat + 32) % 4294967296 :=
      UInt32.toNat_add ..
    exact (congrArg Char.toNat (dif_pos (hrange.2 h))).trans (hsum.trans (by omega))
  · next h => exact congrArg Char.toNat (dif_neg fun hc => h (hrange.1 hc))

theorem toNat_toUpper (c : Char) :
    c.toUpper.toNat = if 97 ≤ c.toNat ∧ c.toNat ≤ 122 then c.toNat - 32 else c.toNat := by
  have hrange : 'a'.val ≤ c.val ∧ c.val ≤ 'z'.val ↔ 97 ≤ c.toNat ∧ c.toNat ≤ 122 := by
    simp [UInt32.le_iff_toNat_le]
  split
  · next h =>
    -- 32 is taken away by adding what is left to the end of the word
    have hsum : (c.val + ('A'.val - 'a'.val)).toNat = (c.toNat + 4294967264) % 4294967296 :=
      UInt32.toNat_add ..
    exact (congrArg Char.toNat (dif_pos (hrange.2 h))).trans (hsum.trans (by omega))
  · next h => exact congrArg Char.toNat (dif_neg fun hc => h (hrange.1 hc))

theorem toLower_toLower : Char.toLower ∘ Char.toLower = Char.toLower := by
  funext c
  rw [Function.comp, ← Char.toNat_inj]
  grind [toNat_toLower]

theorem toLower_toUpper : Char.toLower ∘ Char.toUpper = Char.toLower := by
  funext c
  rw [Function.comp, ← Char.toNat_inj]
  grind [toNat_toLower, toNat_toUpper]

theorem toUpper_toLower : Char.toUpper ∘ Char.toLower = Char.toUpper := by
  funext c
  rw [Function.comp, ← Char.toNat_inj]
  grind [toNat_toLower, toNat_toUpper]

/-! ## Texts -/

/-- Texts that are the same when the case of ASCII letters is ignored. -/
def SameButCase (s t : String) : Prop :=
  s.map Char.toLower = t.map Char.toLower

theorem sameButCase_toLower (s : String) : SameButCase (s.map Char.toLower) s := by
  rw [SameButCase, String.map_map, toLower_toLower]

/-- In front of a text in upper case, folding to upper case ignores case. -/
theorem map_toUpper_eq_iff {s t : String} (ht : t.map Char.toUpper = t) :
    s.map Char.toUpper = t ↔ SameButCase s t := by
  constructor
  · intro h
    rw [SameButCase, ← h, String.map_map, toLower_toUpper]
  · intro h
    have hfolded : (s.map Char.toLower).map Char.toUpper = (t.map Char.toLower).map Char.toUpper :=
      congrArg (String.map Char.toUpper) h
    rwa [String.map_map, String.map_map, toUpper_toLower, ht] at hfolded

namespace Numeral

theorem toUpper_digit {d : Nat} (hd : d < 16) : (digit d).toUpper = digit d := by
  have hall : ∀ d < 16, (digit d).toUpper = digit d := by decide
  exact hall d hd

/-- Bytes are written in upper case. -/
theorem map_toUpper_hexBytes (bs : List UInt8) : (hexBytes bs).map Char.toUpper = hexBytes bs := by
  rw [← String.toList_inj, String.toList_map, hexBytes, String.toList_ofList]
  induction bs with
  | nil => rfl
  | cons b bs ih =>
    have hb := b.toNat_lt
    have hhigh : b.toNat / 16 < 16 := by omega
    have hlow : b.toNat % 16 < 16 := Nat.mod_lt _ (by decide)
    rw [List.flatMap_cons, List.map_append, ih]
    simp only [List.map_cons, List.map_nil, toUpper_digit hhigh, toUpper_digit hlow]

end Numeral

end OffsetAtlas.Text
