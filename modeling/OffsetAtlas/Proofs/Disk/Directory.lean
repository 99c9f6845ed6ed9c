/-
OffsetAtlas.Proofs.Disk.Directory — names in a directory that a path leads to.

A walk is a fold along the steps of a path (`walk_append`), and joining a plain name to a
directory's path adds one step (`steps_join`). So once the path is known to lead to a directory, the
joined path finds, makes and deletes exactly what stands under that name in that directory
(`target_join`, `find_join`, and the operations after them). A name by itself is looked up where
paths start (`find_name`, `target_name`). A walk only asks which places are directories, hence a
path leads to the same directory as long as no directory goes away (`find_directory_mono`).
-/
import OffsetAtlas.Proofs.Disk.Nodes

namespace OffsetAtlas

open Text

/-- A name that is one step of a path and stands for itself. -/
structure Plain (name : String) : Prop where
  nonempty : name ≠ ""
  noDot : name ≠ "."
  noDots : name ≠ ".."
  noSlash : '/' ∉ name.toList
  noNul : '\x00' ∉ name.toList
  short : name.utf8ByteSize ≤ longestName

instance decidablePlain (name : String) : Decidable (Plain name) :=
  decidable_of_iff (name ≠ "" ∧ name ≠ "." ∧ name ≠ ".." ∧ '/' ∉ name.toList
      ∧ '\x00' ∉ name.toList ∧ name.utf8ByteSize ≤ longestName)
    ⟨fun ⟨h₁, h₂, h₃, h₄, h₅, h₆⟩ => ⟨h₁, h₂, h₃, h₄, h₅, h₆⟩,
      fun h => ⟨h.nonempty, h.noDot, h.noDots, h.noSlash, h.noNul, h.short⟩⟩

/-- A plain name does not start at the root. -/
theorem Plain.not_startsWith {name : String} (hp : Plain name) : ¬ name.startsWith "/" = true := by
  rw [String.startsWith_string_iff]
  intro hfront
  exact hp.noSlash (hfront.subset List.mem_cons_self)

/-- A plain name whose path below a directory is not too long to be walked. -/
structure FitsBelow (dir : Path) (name : String) : Prop extends Plain name where
  walkable : dir.text.utf8ByteSize + name.utf8ByteSize < longestPath

namespace Disk

variable {d d' : Disk} {dir : Path} {place : Place} {name : String}

/-! ## Walking -/

theorem walk_append (d : Disk) (place : Place) (ss ts : List String) :
    d.walk place (ss ++ ts) = (d.walk place ss).bind fun p => d.walk p ts := by
  induction ss generalizing place with
  | nil => rfl
  | cons s ss ih =>
    simp only [List.cons_append, walk]
    cases d.node? place with
    | none => rfl
    | some node =>
      cases node with
      | file f => rfl
      | directory =>
        simp only
        split
        · exact ih place
        · split
          · exact ih place.dropLast
          · split
            · rfl
            · exact ih (place ++ [s])

/-- A step that can be taken starts in a directory. -/
theorem node?_of_walk_cons {s : String} {ss : List String} {q : Place}
    (h : d.walk place (s :: ss) = .ok q) : d.node? place = some .directory := by
  rw [walk] at h
  cases hn : d.node? place with
  | none => simp [hn] at h
  | some node =>
    cases node with
    | file f => simp [hn] at h
    | directory => rfl

theorem walk_empty (hn : d.node? place = some .directory) (ss : List String) :
    d.walk place ("" :: ss) = d.walk place ss := by
  simp [walk, hn]

/-- Empty steps stay where they are. -/
theorem eq_of_walk_empties {ss : List String} (hss : ∀ s ∈ ss, s = "") {q : Place}
    (h : d.walk place ss = .ok q) : q = place := by
  induction ss with
  | nil =>
    cases h
    rfl
  | cons s ss ih =>
    obtain rfl : s = "" := hss s List.mem_cons_self
    rw [walk_empty (node?_of_walk_cons h)] at h
    exact ih (fun s hs => hss s (List.mem_cons_of_mem _ hs)) h

theorem walk_plain (hn : d.node? place = some .directory) (hp : Plain name) :
    d.walk place [name] = .ok (place ++ [name]) := by
  simp [walk, hn, hp.nonempty, hp.noDot, hp.noDots, Nat.not_lt.2 hp.short]

/-- A walk that comes to its end does so on every disk with the same directories. -/
theorem walk_mono (hdirs : ∀ p, d.node? p = some .directory → d'.node? p = some .directory)
    {ss : List String} {p q : Place} (h : d.walk p ss = .ok q) : d'.walk p ss = .ok q := by
  induction ss generalizing p with
  | nil => exact h
  | cons s ss ih =>
    have hn := node?_of_walk_cons h
    simp only [walk, hn] at h
    simp only [walk, hdirs p hn]
    split at h
    · next hs =>
      rw [if_pos hs]
      exact ih h
    · next hs =>
      rw [if_neg hs]
      split at h
      · next hs =>
        rw [if_pos hs]
        exact ih h
      · next hs =>
        rw [if_neg hs]
        split at h
        · cases h
        · next hs =>
          rw [if_neg hs]
          exact ih h

/-! ## Paths to directories -/

/-- What it means that a path leads to a directory. -/
theorem find_directory_iff :
    d.find dir = .ok (place, .directory) ↔
      walkable dir = .ok () ∧ d.walk (d.origin dir) (steps dir) = .ok place
        ∧ d.node? place = some .directory := by
  unfold find resolve
  cases hw : walkable dir with
  | error e => simp
  | ok u =>
    cases hs : d.walk (d.origin dir) (steps dir) with
    | error e => simp
    | ok q =>
      simp only [true_and, Except.ok.injEq]
      constructor
      · intro h
        cases hn : d.node? q with
        | none => simp [hn] at h
        | some node =>
          simp only [hn, Except.ok.injEq, Prod.mk.injEq] at h
          obtain ⟨rfl, rfl⟩ := h
          exact ⟨rfl, hn⟩
      · rintro ⟨rfl, hn⟩
        simp [hn]

/-- A path leads to the same directory as long as no directory goes away. -/
theorem find_directory_mono (hhome : d'.home = d.home)
    (hdirs : ∀ p, d.node? p = some .directory → d'.node? p = some .directory)
    (h : d.find dir = .ok (place, .directory)) : d'.find dir = .ok (place, .directory) := by
  obtain ⟨hw, hs, hn⟩ := find_directory_iff.1 h
  have horigin : d'.origin dir = d.origin dir := by simp [origin, hhome]
  exact find_directory_iff.2 ⟨hw, by rw [horigin]; exact walk_mono hdirs hs, hdirs _ hn⟩

theorem text_ne_empty (h : walkable dir = .ok ()) : dir.text ≠ "" := by
  intro he
  unfold walkable at h
  split at h
  · cases h
  · cases h

theorem not_hasNul (h : walkable dir = .ok ()) : '\x00' ∉ dir.text.toList := by
  unfold walkable at h
  split at h
  · cases h
  · next hnul => simpa [hasNul] using hnul

/-! ## Joined paths -/

theorem endsWith_slash_iff (s : String) :
    s.endsWith "/" = true ↔ s.toList.getLast? = some '/' := by
  rw [← String.endsWith_toSlice, String.Slice.endsWith_string_iff, String.copy_toSlice,
    List.getLast?_eq_some_iff]
  constructor
  · rintro ⟨cs, hcs⟩
    exact ⟨cs, hcs.symm⟩
  · rintro ⟨cs, hcs⟩
    exact ⟨cs, hcs.symm⟩

/-- The text of a name below a directory. -/
theorem text_join (hp : Plain name) (hdir : dir.text ≠ "") :
    (dir.text.toList.getLast? = some '/' ∧ (dir.join name).text = dir.text ++ name)
      ∨ (dir.join name).text = dir.text ++ "/" ++ name := by
  unfold Path.join
  rw [if_neg hp.not_startsWith]
  split
  · next h =>
    left
    have hend : dir.text.endsWith "/" = true := by
      simpa [String.isEmpty_iff, hdir] using h
    exact ⟨(endsWith_slash_iff _).1 hend, rfl⟩
  · exact .inr rfl

/-- A name below a directory is one more step, behind steps that lead to the same place. -/
theorem steps_join (hp : Plain name) (hdir : dir.text ≠ "") :
    ∃ before, steps (dir.join name) = before ++ [name]
      ∧ (steps dir = before ∨ steps dir = before ++ [""]) := by
  have hname : split '/' name.toList = [name.toList] := split_of_not_mem hp.noSlash
  rcases text_join hp hdir with ⟨hlast, htext⟩ | htext
  · obtain ⟨cs, hcs⟩ := List.getLast?_eq_some_iff.1 hlast
    refine ⟨(split '/' cs).map String.ofList, ?_, .inr ?_⟩
    · rw [steps, htext, String.toList_append, hcs, List.append_assoc, List.singleton_append,
        split_append_cons, hname]
      simp
    · rw [steps, hcs, split_append_cons]
      simp
  · refine ⟨steps dir, ?_, .inl rfl⟩
    rw [steps, htext, String.toList_append, String.toList_append, List.append_assoc]
    show (split '/' (dir.text.toList ++ '/' :: name.toList)).map String.ofList = _
    rw [split_append_cons, hname]
    simp [steps]

theorem origin_join (d : Disk) (hp : Plain name) (hdir : dir.text ≠ "") :
    d.origin (dir.join name) = d.origin dir := by
  obtain ⟨c, cs, hcs⟩ := List.exists_cons_of_ne_nil (l := dir.text.toList) (by simpa using hdir)
  have key : ∀ t : String, (dir.text ++ t).startsWith "/" = dir.text.startsWith "/" := by
    intro t
    rw [Bool.eq_iff_iff, String.startsWith_string_iff, String.startsWith_string_iff,
      String.toList_append, hcs]
    simp
  rcases text_join hp hdir with ⟨-, htext⟩ | htext
  · simp [origin, htext, key]
  · simp [origin, htext, String.append_assoc, key]

theorem walkable_join (hf : FitsBelow dir name) (hw : walkable dir = .ok ()) :
    walkable (dir.join name) = .ok () := by
  have hdir := text_ne_empty hw
  have hnul := not_hasNul hw
  have hlong := hf.walkable
  have hone : ("/" : String).utf8ByteSize = 1 := rfl
  have key : ∀ p : Path, (p.text = dir.text ++ name ∨ p.text = dir.text ++ "/" ++ name) →
      walkable p = .ok () := by
    intro p hp
    have h1 : ¬ hasNul p = true := by
      have := hf.noNul
      rcases hp with h | h <;> simp [hasNul, h, hnul, this]
    have h2 : p.text ≠ "" := by
      rcases hp with h | h <;> simp [h, hdir]
    have h3 : ¬ longestPath < p.text.utf8ByteSize := by
      rcases hp with h | h <;> simp only [h, String.utf8ByteSize_append, hone] <;> omega
    rw [walkable, if_neg h1, if_neg h2, if_neg h3]
  rcases text_join hf.toPlain hdir with ⟨-, htext⟩ | htext
  · exact key _ (.inl htext)
  · exact key _ (.inr htext)

/-- The steps in front of a joined name lead to the directory. -/
theorem walk_before (h : d.find dir = .ok (place, .directory)) {before : List String}
    (hb : steps dir = before ∨ steps dir = before ++ [""]) :
    d.walk (d.origin dir) before = .ok place := by
  obtain ⟨-, hs, hn⟩ := find_directory_iff.1 h
  rcases hb with hb | hb
  · rw [← hb]
    exact hs
  · rw [hb, walk_append] at hs
    cases hw : d.walk (d.origin dir) before with
    | error e => simp [hw, Except.bind] at hs
    | ok q =>
      simp only [hw, Except.bind] at hs
      obtain rfl : place = q := eq_of_walk_empties (by simp) hs
      rfl

/-- A joined path ends in the name, in the directory. -/
theorem ending_join (h : d.find dir = .ok (place, .directory)) (hf : FitsBelow dir name) :
    d.ending (dir.join name) = .ok (.name place name false) := by
  obtain ⟨hw, -, hn⟩ := find_directory_iff.1 h
  have hdir := text_ne_empty hw
  obtain ⟨before, hsteps, hb⟩ := steps_join hf.toPlain hdir
  have hwalk : d.walk (d.origin dir) (before ++ ["."]) = .ok place := by
    rw [walk_append, walk_before h hb]
    simp [Except.bind, walk, hn]
  have hslash : (dir.join name).text.endsWith "/" = false := by
    have hne : name.toList ≠ [] := by simpa using hf.nonempty
    have hlast := List.getLast?_eq_some_getLast hne
    have hc : name.toList.getLast hne ≠ '/' := fun he =>
      hf.noSlash (he ▸ List.getLast_mem hne)
    rw [Bool.eq_false_iff, ne_eq, endsWith_slash_iff]
    rcases text_join hf.toPlain hdir with ⟨-, htext⟩ | htext
    · simpa [htext, List.getLast?_append, hlast] using hc
    · simpa [htext, List.getLast?_append, List.getLast?_cons, hlast] using hc
  unfold ending
  rw [walkable_join hf hw, hsteps, origin_join d hf.toPlain hdir]
  simp [hf.nonempty, hf.noDot, hf.noDots, hwalk, hslash, bind, Except.bind, pure, Except.pure]

/-- Where a joined path would make a file, and what is there. -/
theorem target_join (h : d.find dir = .ok (place, .directory)) (hf : FitsBelow dir name) :
    d.target (dir.join name) = .ok (place ++ [name], d.node? (place ++ [name])) := by
  unfold target
  rw [ending_join h hf]
  simp [bind, Except.bind, entry, Nat.not_lt.2 hf.short]

theorem find_join (h : d.find dir = .ok (place, .directory)) (hf : FitsBelow dir name) :
    d.find (dir.join name) = match d.node? (place ++ [name]) with
      | none => .error .notFound
      | some node => .ok (place ++ [name], node) := by
  obtain ⟨hw, -, hn⟩ := find_directory_iff.1 h
  obtain ⟨before, hsteps, hb⟩ := steps_join hf.toPlain (text_ne_empty hw)
  have hwalk : d.walk (d.origin dir) (before ++ [name]) = .ok (place ++ [name]) := by
    rw [walk_append, walk_before h hb]
    exact walk_plain hn hf.toPlain
  unfold find resolve
  rw [walkable_join hf hw, origin_join d hf.toPlain (text_ne_empty hw), hsteps]
  cases hn' : d.node? (place ++ [name]) <;> simp [hwalk, hn']

/-! ## Names by themselves -/

theorem steps_name (hp : Plain name) : steps ⟨name⟩ = [name] := by
  rw [steps, split_of_not_mem hp.noSlash]
  simp

theorem origin_name (d : Disk) (hp : Plain name) : d.origin ⟨name⟩ = d.home := by
  rw [origin, if_neg hp.not_startsWith]

/-- A name by itself is looked up in the directory that paths start in. -/
theorem find_name (hp : Plain name) (hw : walkable ⟨name⟩ = .ok ())
    (hhome : d.node? d.home = some .directory) :
    d.find ⟨name⟩ = (d.node? (d.home ++ [name])).elim (.error .notFound)
      fun node => .ok (d.home ++ [name], node) := by
  unfold find resolve
  rw [hw, steps_name hp, origin_name d hp]
  simp only [walk_plain hhome hp]
  cases d.node? (d.home ++ [name]) with
  | none => rfl
  | some node => rfl

/-- A name by itself is made there. -/
theorem target_name (hp : Plain name) (hw : walkable ⟨name⟩ = .ok ())
    (hhome : d.node? d.home = some .directory) :
    d.target ⟨name⟩ = .ok (d.home ++ [name], d.node? (d.home ++ [name])) := by
  have hslash : name.endsWith "/" = false := by
    rw [Bool.eq_false_iff, ne_eq, endsWith_slash_iff]
    intro hlast
    exact hp.noSlash (List.mem_of_getLast? hlast)
  have hhere : d.walk d.home ["."] = .ok d.home := by simp [walk, hhome]
  unfold target ending
  rw [hw, steps_name hp, origin_name d hp]
  simp [hp.nonempty, hp.noDot, hp.noDots, hhere, hslash, bind, Except.bind, pure, Except.pure,
    entry, Nat.not_lt.2 hp.short]

end Disk

end OffsetAtlas
