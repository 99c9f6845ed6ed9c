/-
OffsetAtlas.Attempt — a step that changes a state and may fail.

A failing attempt leaves a state behind, too: what was read or written before the failure stays so.
The lemmas `bind_apply`, `pure_apply` and `fail_apply` turn a `do` block into nested matches, so
that a proof never opens the monad; where the outcome of a step is known, `bind_of_ok` and
`bind_of_error` take that step at once, and where the outcome of the whole is known, `bind_eq_ok`
gives the steps back.
-/
import OffsetAtlas.Failure

namespace OffsetAtlas

/-- An answer or a failure, together with the state afterwards. -/
abbrev Attempt (σ α : Type) := ExceptT Failure (StateM σ) α

namespace Attempt

variable {σ α β : Type}

/-- Runs an attempt in a state. -/
def on (s : σ) (x : Attempt σ α) : Except Failure α × σ :=
  x s

/-- The attempt that fails and changes nothing. -/
def fail (e : Failure) : Attempt σ α :=
  fun s => (.error e, s)

/-- An answer found without looking at the state. -/
def ofExcept (x : Except Failure α) : Attempt σ α :=
  fun s => (x, s)

/-- A change of the state that cannot fail. -/
def change (f : σ → α × σ) : Attempt σ α :=
  fun s => (.ok (f s).1, (f s).2)

theorem pure_apply (a : α) (s : σ) : (pure a : Attempt σ α) s = (.ok a, s) := rfl

theorem bind_apply (x : Attempt σ α) (f : α → Attempt σ β) (s : σ) :
    (x >>= f) s = match x s with
      | (.ok a, t) => f a t
      | (.error e, t) => (.error e, t) := by
  simp only [bind, ExceptT.bind, ExceptT.mk, StateT.bind, ExceptT.bindCont]
  rcases x s with ⟨_ | _, t⟩ <;> rfl

/-- An attempt goes on where its first step succeeded. -/
theorem bind_of_ok {x : Attempt σ α} {s t : σ} {a : α} (h : x s = (.ok a, t))
    (f : α → Attempt σ β) : (x >>= f) s = f a t := by
  rw [bind_apply, h]

/-- An attempt ends where its first step failed. -/
theorem bind_of_error {x : Attempt σ α} {s t : σ} {e : Failure} (h : x s = (.error e, t))
    (f : α → Attempt σ β) : (x >>= f) s = (.error e, t) := by
  rw [bind_apply, h]

/-- An attempt that succeeded has succeeded step by step. -/
theorem bind_eq_ok {x : Attempt σ α} {f : α → Attempt σ β} {s u : σ} {b : β} :
    (x >>= f) s = (.ok b, u) ↔ ∃ a t, x s = (.ok a, t) ∧ f a t = (.ok b, u) := by
  rw [bind_apply]
  constructor
  · intro h
    rcases hx : x s with ⟨e | a, t⟩
    · rw [hx] at h
      cases h
    · rw [hx] at h
      exact ⟨a, t, rfl, h⟩
  · rintro ⟨a, t, hx, hf⟩
    rw [hx]
    exact hf

theorem map_apply (f : α → β) (x : Attempt σ α) (s : σ) :
    (f <$> x) s = match x s with
      | (.ok a, t) => (.ok (f a), t)
      | (.error e, t) => (.error e, t) := by
  simp only [Functor.map, ExceptT.map, ExceptT.mk, bind, StateT.bind]
  rcases x s with ⟨_ | _, t⟩ <;> rfl

theorem map_eq_ok {f : α → β} {x : Attempt σ α} {s t : σ} {b : β} :
    (f <$> x) s = (.ok b, t) ↔ ∃ a, x s = (.ok a, t) ∧ f a = b := by
  rw [map_apply]
  constructor
  · intro h
    rcases hx : x s with ⟨e | a, u⟩
    · rw [hx] at h
      cases h
    · rw [hx] at h
      cases h
      exact ⟨a, rfl, rfl⟩
  · rintro ⟨a, hx, rfl⟩
    rw [hx]

theorem fail_apply (e : Failure) (s : σ) : (fail e : Attempt σ α) s = (.error e, s) := rfl

theorem ofExcept_apply (x : Except Failure α) (s : σ) : ofExcept x s = (x, s) := rfl

theorem ofExcept_bind {x : Except Failure α} {a : α} (h : x = .ok a) (f : α → Attempt σ β)
    (s : σ) : (ofExcept x >>= f) s = f a s := by
  rw [bind_apply, ofExcept_apply, h]

end Attempt

end OffsetAtlas
