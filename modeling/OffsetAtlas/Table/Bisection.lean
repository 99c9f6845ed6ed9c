/-
OffsetAtlas.Table.Bisection — where a condition stops holding.

`bisect p lo hi` halves the range from `lo` up to `hi` until one place is left. If `p` holds in
front of some place and nowhere behind it, that place is the answer; on any other `p` it is still no
place behind the range (`bisect_le`), and which one is fixed by the halving.
-/

namespace OffsetAtlas

/-- Halves the range of candidates, going up where `p` holds. -/
def bisect {n : Nat} (p : Fin n → Bool) (lo hi : Nat) (inside : hi ≤ n) : Nat :=
  if h : lo < hi then
    let mid := lo + (hi - lo) / 2
    if p ⟨mid, by omega⟩ then bisect p (mid + 1) hi inside
    else bisect p lo mid (by omega)
  else lo
termination_by hi - lo

/-- The answer is not above the range. -/
theorem bisect_le {n : Nat} (p : Fin n → Bool) (lo hi : Nat) (inside : hi ≤ n) (h : lo ≤ hi) :
    bisect p lo hi inside ≤ hi := by
  fun_induction bisect p lo hi inside with
  | case1 lo hi inside _ mid hp ih => exact ih (by omega)
  | case2 lo hi inside _ mid hp ih => exact Nat.le_trans (ih (by omega)) (by omega)
  | case3 lo hi inside _ => exact h

/-- Where `p` stops holding among the first `n` places. -/
def partitionPoint {n : Nat} (p : Fin n → Bool) : Nat :=
  bisect p 0 n (Nat.le_refl n)

theorem partitionPoint_le {n : Nat} (p : Fin n → Bool) : partitionPoint p ≤ n :=
  bisect_le p 0 n (Nat.le_refl n) (Nat.zero_le n)

end OffsetAtlas
