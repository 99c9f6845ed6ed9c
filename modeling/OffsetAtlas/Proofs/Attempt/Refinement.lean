/-
OffsetAtlas.Proofs.Attempt.Refinement — one run beside another.

`Refines kept view got r p` compares the outcome `r` of one run with the outcome `p` of another, in
states that need not have anything to do with each other: both fail alike, or answer alike once the
first answer is seen through `view`. Besides that it says what the first run leaves behind: `kept`
holds of its state however it ends, and `got` of its answer together with the state. `Refines.bind`
composes runs of two parts.
-/
import OffsetAtlas.Attempt

namespace OffsetAtlas.Attempt

variable {σ τ α α' β β' : Type}

/-- A run that answers what another run answers, and leaves its own state in order. -/
structure Refines (kept : σ → Prop) (view : α → α') (got : α → σ → Prop)
    (r : Except Failure α × σ) (p : Except Failure α' × τ) : Prop where
  same : r.1.map view = p.1
  state : kept r.2
  answer : ∀ a, r.1 = .ok a → got a r.2

variable {kept : σ → Prop} {view : α → α'} {view' : β → β'} {Q : α → σ → Prop}
  {Q' : β → σ → Prop} {s : σ} {t : τ}

theorem Refines.ok (view : α → α') {a : α} (hk : kept s) (hg : Q a s) :
    Refines kept view Q (.ok a, s) ((.ok (view a), t) : Except Failure α' × τ) :=
  ⟨rfl, hk, fun _ h => Except.ok.inj h ▸ hg⟩

theorem Refines.error {e : Failure} (hk : kept s) :
    Refines kept view Q (.error e, s) ((.error e, t) : Except Failure α' × τ) :=
  ⟨rfl, hk, fun _ h => nomatch h⟩

/-- Runs that refine others part by part refine them as a whole. -/
theorem Refines.bind {x : Attempt σ α} {y : Attempt τ α'} {f : α → Attempt σ β}
    {g : α' → Attempt τ β'} (hx : Refines kept view Q (x s) (y t))
    (hf : ∀ a s t, kept s → Q a s → Refines kept view' Q' (f a s) (g (view a) t)) :
    Refines kept view' Q' ((x >>= f) s) ((y >>= g) t) := by
  obtain ⟨hsame, hk, hg⟩ := hx
  rw [bind_apply, bind_apply]
  rcases hxs : x s with ⟨e | a, s'⟩ <;> rcases hyt : y t with ⟨e' | a', t'⟩ <;>
    rw [hxs, hyt] at hsame <;> rw [hxs] at hk hg
  · cases hsame
    exact .error hk
  · cases hsame
  · cases hsame
  · obtain rfl : view a = a' := Except.ok.inj hsame
    exact hf a s' t' hk (hg a rfl)

/-- A part that both runs do alike, and that changes neither state. -/
theorem Refines.ofExcept {x : Except Failure α} (hk : kept s) (hg : ∀ a, x = .ok a → Q a s) :
    Refines kept (fun a => a) Q (Attempt.ofExcept x s) (Attempt.ofExcept x t) :=
  ⟨congrFun Except.map_id x, hk, hg⟩

end OffsetAtlas.Attempt
