/-
OffsetAtlas.Proofs.Disk.Writing — a file that was written is what its path finds.

Paths are walked in two ways. Writing looks at the end of the path apart from the rest, reading
walks all its steps. For a path that names a place to write at the two agree, because such a path
does not end in a slash and so has no empty steps behind its last name (`resolve_of_target`). What
was written is then found by the same path (`file?_of_overwrite`).
-/
import OffsetAtlas.Proofs.Disk.Operations

namespace OffsetAtlas

open Text

/-- The part behind the last separator is not empty if something stands there. -/
theorem Text.ne_nil_of_getLast?_split {α : Type} [DecidableEq α] {sep a : α} (ha : a ≠ sep)
    (as : List α) {part : List α} (h : (split sep (as ++ [a])).getLast? = some part) :
    part ≠ [] := by
  induction as with
  | nil =>
    rw [List.nil_append, split_cons, split_nil, splitStep, if_neg ha] at h
    cases h
    simp
  | cons b as ih =>
    obtain ⟨first, rest, hparts⟩ := List.exists_cons_of_ne_nil (split_ne_nil sep (as ++ [a]))
    rw [List.cons_append, split_cons, hparts, splitStep] at h
    rw [hparts] at ih
    by_cases hb : b = sep
    · rw [if_pos hb, List.getLast?_cons_cons] at h
      exact ih h
    · rw [if_neg hb] at h
      cases rest with
      | nil =>
        cases h
        simp
      | cons next rest =>
        simp only [List.getLast?_cons_cons] at h ih
        exact ih h

namespace Disk

variable {d d' : Disk} {p : Path} {q : Place} {there : Option Node} {contents : ByteArray}

/-- A path that does not end in a slash has a last step that is not empty. -/
theorem getLast?_steps_ne_empty (hw : walkable p = .ok ()) (hslash : p.text.endsWith "/" = false) :
    (steps p).getLast? ≠ some "" := by
  have htext := text_ne_empty hw
  obtain ⟨cs, c, hcs⟩ : ∃ cs c, p.text.toList = cs ++ [c] := by
    have hne : p.text.toList ≠ [] := by simpa using htext
    exact ⟨_, _, (List.dropLast_concat_getLast hne).symm⟩
  have hc : c ≠ '/' := by
    rintro rfl
    have hends : p.text.endsWith "/" = true := by
      rw [endsWith_slash_iff, hcs]
      simp
    rw [hslash] at hends
    cases hends
  intro hlast
  rw [steps, hcs, List.getLast?_map, Option.map_eq_some_iff] at hlast
  obtain ⟨part, hpart, hempty⟩ := hlast
  refine ne_nil_of_getLast?_split hc cs hpart ?_
  simpa using congrArg String.toList hempty

/-- How a path ends where a file could be written. -/
theorem ending_of_target (h : d.target p = .ok (q, there)) (hfile : there ≠ some .directory) :
    walkable p = .ok () ∧ p.text.endsWith "/" = false ∧ ∃ last before place,
      (steps p).reverse.dropWhile (· = "") = last :: before ∧ ¬ (last = "." ∨ last = "..")
        ∧ d.walk (d.origin p) (before.reverse ++ ["."]) = .ok place
        ∧ d.entry place last = .ok (q, there) := by
  unfold target ending at h
  cases hw : walkable p with
  | error e => simp [hw, bind, Except.bind] at h
  | ok u =>
    simp only [hw, bind, Except.bind] at h
    cases hends : (steps p).reverse.dropWhile (· = "") with
    | nil =>
      simp only [hends, pure, Except.pure, Except.ok.injEq, Prod.mk.injEq] at h
      exact absurd h.2.symm hfile
    | cons last before =>
      simp only [hends] at h
      by_cases hdots : last = "." ∨ last = ".."
      · rw [if_pos hdots] at h
        cases hwalk : d.walk (d.origin p) (before.reverse ++ [last]) with
        | error e => simp [hwalk] at h
        | ok place =>
          simp only [hwalk, pure, Except.pure, Except.ok.injEq, Prod.mk.injEq] at h
          exact absurd h.2.symm hfile
      · rw [if_neg hdots] at h
        cases hwalk : d.walk (d.origin p) (before.reverse ++ ["."]) with
        | error e => simp [hwalk] at h
        | ok place =>
          cases hslash : p.text.endsWith "/" with
          | true => simp [hwalk, hslash, pure, Except.pure, throw, throwThe, MonadExceptOf.throw] at h
          | false =>
            simp only [hwalk, hslash, pure, Except.pure] at h
            exact ⟨rfl, rfl, last, before, place, rfl, hdots, hwalk, h⟩

/-- Where a file would be written is where the path leads. -/
theorem resolve_of_target (h : d.target p = .ok (q, there)) (hfile : there ≠ some .directory) :
    d.resolve p = .ok q := by
  obtain ⟨hw, hslash, last, before, place, hends, hdots, hwalk, hentry⟩ := ending_of_target h hfile
  obtain ⟨hdot, hdots⟩ := not_or.1 hdots
  have hshort : ¬ longestName < last.utf8ByteSize := by
    intro hlong
    rw [entry, if_pos hlong] at hentry
    cases hentry
  obtain rfl : place ++ [last] = q := by
    rw [entry, if_neg hshort] at hentry
    cases hentry
    rfl
  -- no empty steps stand behind the last one, so the path is walked as it was cut
  have hlast : last ≠ "" := by
    have hnot := List.head?_dropWhile_not (fun s => decide (s = "")) (steps p).reverse
    simpa [hends] using hnot
  obtain ⟨empties, hsteps, hempty⟩ := steps_eq_of_dropWhile hends
  have hnone : empties = [] := by
    refine List.eq_nil_iff_forall_not_mem.2 fun s hs => ?_
    refine getLast?_steps_ne_empty hw hslash ?_
    obtain ⟨front, final, rfl⟩ : ∃ front final, empties = front ++ [final] :=
      ⟨_, _, (List.dropLast_concat_getLast (List.ne_nil_of_mem hs)).symm⟩
    rw [hsteps, hempty final (by simp), ← List.cons_append, ← List.append_assoc]
    exact List.getLast?_concat
  rw [walk_append] at hwalk
  cases hbefore : d.walk (d.origin p) before.reverse with
  | error e => simp [hbefore, Except.bind] at hwalk
  | ok before' =>
    simp only [hbefore, Except.bind] at hwalk
    have hdir := node?_of_walk_cons hwalk
    obtain rfl : before' = place := by simpa [walk, hdir] using hwalk
    rw [resolve, hw, hsteps, hnone, walk_append, hbefore]
    simp [Except.bind, walk, hdir, hlast, hdot, hdots, hshort]

/-- Walks are the same on every disk with the same directories. -/
theorem resolve_mono (d d' : Disk) (hhome : d'.home = d.home)
    (hdirs : ∀ p, d.node? p = some .directory → d'.node? p = some .directory)
    (h : d.resolve p = .ok q) : d'.resolve p = .ok q := by
  unfold resolve at h ⊢
  have horigin : d'.origin p = d.origin p := by simp [origin, hhome]
  split at h
  · cases h
  · next u hw =>
    simp only [horigin]
    exact walk_mono hdirs h

/-- What is written into a file that was opened is found by its path. -/
theorem file?_write_openEmpty {opened : Disk} (h : d.openEmpty p = .ok (q, opened))
    (block : Thunk ByteArray) :
    ∃ f, (opened.write q block).file? p = some f ∧ f.contents = block.get := by
  obtain ⟨htarget, hroot, hcases⟩ := openEmpty_eq_ok h
  have hfile : d.node? q ≠ some .directory := by
    rcases hcases with ⟨hnone, -⟩ | ⟨f, hf, -⟩
    · simp [hnone]
    · simp [hf]
  have hresolve := resolve_of_target htarget hfile
  have hdirs : ∀ d'' : Disk, (∀ r, r ≠ q → d''.node? r = d.node? r) →
      ∀ r, d.node? r = some .directory → d''.node? r = some .directory := by
    intro d'' hsame r hr
    rw [hsame r (by rintro rfl; exact hfile hr)]
    exact hr
  rcases hcases with ⟨hnone, hwrite⟩ | ⟨f, hf, hwrite⟩
  · have hresolve' := resolve_mono d (d.putNew q block.get).2 rfl
      (hdirs _ fun r hr => node?_putNew_of_ne d _ hr) hresolve
    refine ⟨⟨⟨d.nextId⟩, block.get⟩, ?_, rfl⟩
    rw [hwrite, file?, find, hresolve']
    simp [node?_putNew, hroot]
  · have hresolve' := resolve_mono d (d.put q (.file { f with block })) rfl
      (hdirs _ fun r hr => node?_put_of_ne d _ hr) hresolve
    refine ⟨{ f with block }, ?_, rfl⟩
    rw [hwrite, file?, find, hresolve']
    simp [node?_put, hroot]

/-- A file that was written is there, with what was written. -/
theorem file?_of_overwrite (h : d.overwrite p contents = .ok d') :
    ∃ f, d'.file? p = some f ∧ f.contents = contents := by
  obtain ⟨q, opened, hopen, rfl⟩ := overwrite_eq_ok_iff.1 h
  exact file?_write_openEmpty hopen contents

end Disk

end OffsetAtlas
