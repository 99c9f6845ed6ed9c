/-
OffsetAtlas.Proofs.Attempt.Each — a step for each element of a list, until one fails.

Either every step succeeds, and the results stand in the order of the elements (`mapM_eq_ok_iff`),
or the first step that fails ends it, and its failure is that of the whole (`mapM_eq_error_iff`).
-/
import Mathlib.Data.List.Forall2

namespace OffsetAtlas

variable {ε α β : Type} {f : α → Except ε β} {l : List α} {a : α} {bs : List β}

/-- In lists that are related, every element is related to one on the other side. -/
theorem related_of_mem {R : α → β → Prop} (h : List.Forall₂ R l bs) (ha : a ∈ l) :
    ∃ b ∈ bs, R a b := by
  induction h with
  | nil => cases ha
  | cons hab _ ih =>
    rcases List.mem_cons.1 ha with rfl | ha
    · exact ⟨_, List.mem_cons_self, hab⟩
    · obtain ⟨b, hb, hR⟩ := ih ha
      exact ⟨b, List.mem_cons_of_mem _ hb, hR⟩

theorem mapM_cons_of_ok {b : β} (h : f a = .ok b) :
    (a :: l).mapM f = (l.mapM f).map (b :: ·) := by
  rw [List.mapM_cons, h]
  cases l.mapM f <;> rfl

theorem mapM_cons_of_error {e : ε} (h : f a = .error e) : (a :: l).mapM f = .error e := by
  rw [List.mapM_cons, h]
  rfl

theorem mapM_eq_ok_iff : l.mapM f = .ok bs ↔ List.Forall₂ (fun a b => f a = .ok b) l bs := by
  induction l generalizing bs with
  | nil =>
    rw [List.forall₂_nil_left_iff]
    constructor
    · intro h
      cases h
      rfl
    · intro h
      rw [h]
      rfl
  | cons a l ih =>
    rw [List.forall₂_cons_left_iff]
    cases ha : f a with
    | error e => simp [mapM_cons_of_error ha]
    | ok b =>
      rw [mapM_cons_of_ok ha]
      cases hl : l.mapM f with
      | error e => simp [← ih, hl, Except.map]
      | ok cs => simp [← ih, hl, Except.map, eq_comm]

theorem mapM_eq_error_iff {e : ε} : l.mapM f = .error e
    ↔ ∃ front a back, l = front ++ a :: back ∧ (∀ c ∈ front, ∃ b, f c = .ok b)
      ∧ f a = .error e := by
  induction l with
  | nil => simp [pure, Except.pure]
  | cons a l ih =>
    constructor
    · intro h
      cases ha : f a with
      | error e' =>
        rw [mapM_cons_of_error ha] at h
        cases h
        exact ⟨[], a, l, rfl, by simp, ha⟩
      | ok b =>
        rw [mapM_cons_of_ok ha] at h
        cases hl : l.mapM f with
        | ok cs =>
          rw [hl] at h
          cases h
        | error e' =>
          rw [hl] at h
          cases h
          obtain ⟨front, c, back, rfl, hfront, hc⟩ := ih.1 hl
          refine ⟨a :: front, c, back, rfl, ?_, hc⟩
          rw [List.forall_mem_cons]
          exact ⟨⟨b, ha⟩, hfront⟩
    · intro h
      obtain ⟨front, c, back, heq, hfront, hc⟩ := h
      cases front with
      | nil =>
        obtain ⟨rfl, rfl⟩ := List.cons.inj heq
        exact mapM_cons_of_error hc
      | cons first front =>
        obtain ⟨rfl, rfl⟩ := List.cons.inj heq
        rw [List.forall_mem_cons] at hfront
        obtain ⟨⟨b, ha⟩, hfront⟩ := hfront
        rw [mapM_cons_of_ok ha, ih.2 ⟨front, c, back, rfl, hfront, hc⟩]
        rfl

end OffsetAtlas
