/-
OffsetAtlas.Proofs.Disk.Operations — operations on a name in a directory, and what they leave alone.

`touch_join`, `create_join` and `makeDirectory_of_find` say what the operations that regions use do
below a directory that is there; `remove_eq_ok` says that deleting a file takes away one file and
nothing else. None of them takes a directory away, so the path to the directory stays good.
-/
import OffsetAtlas.Proofs.Disk.Directory

namespace OffsetAtlas.Disk

variable {d d' : Disk} {dir : Path} {place q : Place} {name : String}

/-! ## Directories stay -/

/-- A change in one place where no directory is. -/
theorem find_of_ne (h : d.find dir = .ok (place, .directory)) (hq : d.node? q ≠ some .directory)
    (hhome : d'.home = d.home) (hsame : ∀ p, p ≠ q → d'.node? p = d.node? p) :
    d'.find dir = .ok (place, .directory) := by
  refine find_directory_mono hhome (fun p hp => ?_) h
  rw [hsame p (by rintro rfl; exact hq hp)]
  exact hp

theorem find_put (h : d.find dir = .ok (place, .directory)) (hq : d.node? q ≠ some .directory)
    (node : Node) : (d.put q node).find dir = .ok (place, .directory) :=
  find_of_ne h hq rfl fun _ hp => node?_put_of_ne d node hp

theorem find_putNew (h : d.find dir = .ok (place, .directory)) (hq : d.node? q ≠ some .directory)
    (contents : ByteArray) : (d.putNew q contents).2.find dir = .ok (place, .directory) :=
  find_of_ne h hq rfl fun _ hp => node?_putNew_of_ne d contents hp

theorem find_spent (h : d.find dir = .ok (place, .directory)) :
    d.spent.find dir = .ok (place, .directory) :=
  find_directory_mono (d := d) rfl (fun _ hp => hp) h

theorem find_erase (h : d.find dir = .ok (place, .directory)) (hq : d.node? q ≠ some .directory) :
    (d.erase q).find dir = .ok (place, .directory) :=
  find_of_ne h hq rfl fun _ hp => node?_erase_of_ne d hp

/-! ## Files made unless they are there -/

/-- The disk with a file at a place: the one that is there, or else a new empty one. -/
def touched (d : Disk) (q : Place) : Disk :=
  match d.node? q with
  | none => (d.putNew q .empty).2
  | some _ => d

theorem touch_join (h : d.find dir = .ok (place, .directory)) (hf : FitsBelow dir name)
    (hn : d.node? (place ++ [name]) ≠ some .directory) :
    d.touch (dir.join name) = .ok (d.touched (place ++ [name])) := by
  rw [touch, target_join h hf, touched]
  cases hnode : d.node? (place ++ [name]) with
  | none => rfl
  | some node =>
    cases node with
    | directory => exact absurd hnode hn
    | file f => rfl

theorem node?_touched_of_ne {p : Place} (hp : p ≠ q) : (d.touched q).node? p = d.node? p := by
  unfold touched
  split
  · exact node?_putNew_of_ne d _ hp
  · rfl

theorem directory_of_node?_touched {p : Place} (h : (d.touched q).node? p = some .directory) :
    d.node? p = some .directory := by
  unfold touched at h
  split at h
  · exact directory_of_node?_putNew h
  · exact h

theorem find_touched (h : d.find dir = .ok (place, .directory)) :
    (d.touched q).find dir = .ok (place, .directory) := by
  unfold touched
  split
  · next hn => exact find_putNew h (by simp [hn]) _
  · exact h

theorem Sane.touched (h : d.Sane) (q : Place) : (d.touched q).Sane := by
  unfold Disk.touched
  split
  · exact h.putNew q _
  · exact h

theorem Grows.touched (d : Disk) (q : Place) : Grows d (d.touched q) := by
  unfold Disk.touched
  split
  · exact Grows.putNew d q _
  · exact Grows.refl d

/-! ## Files made and deleted -/

theorem create_join (h : d.find dir = .ok (place, .directory)) (hf : FitsBelow dir name) :
    d.create (dir.join name) = match d.node? (place ++ [name]) with
      | none => .ok (place ++ [name], d.putNew (place ++ [name]) .empty)
      | some _ => .error .alreadyExists := by
  rw [create, target_join h hf]
  cases d.node? (place ++ [name]) <;> rfl

theorem remove_join (h : d.find dir = .ok (place, .directory)) (hf : FitsBelow dir name) :
    d.remove (dir.join name) = match d.node? (place ++ [name]) with
      | none => .error .notFound
      | some .directory => .error .isADirectory
      | some (.file _) => .ok (d.erase (place ++ [name])) := by
  rw [remove, find_join h hf]
  cases d.node? (place ++ [name]) with
  | none => rfl
  | some node => cases node <;> rfl

/-- Deleting takes away the file that the path finds. -/
theorem remove_eq_ok {p : Path} (h : d.remove p = .ok d') :
    ∃ q f, d.find p = .ok (q, .file f) ∧ d' = d.erase q := by
  unfold remove at h
  split at h
  · cases h
  · cases h
  · next q f hfind =>
    cases h
    exact ⟨q, f, hfind, rfl⟩

theorem node?_of_find {p : Path} {node : Node} (h : d.find p = .ok (q, node)) :
    d.node? q = some node := by
  unfold find at h
  split at h
  · cases h
  · split at h
    · cases h
    · next hnode =>
      cases h
      exact hnode

/-- A place where a path would make a file is as the path says. -/
theorem node?_of_target {p : Path} {there : Option Node} (h : d.target p = .ok (q, there))
    (hfile : there ≠ some .directory) : d.node? q = there := by
  unfold target at h
  cases hends : d.ending p with
  | error e => simp [hends, bind, Except.bind] at h
  | ok e =>
    simp only [hends, bind, Except.bind] at h
    split at h
    · cases h
      exact absurd rfl hfile
    · cases h
    · unfold entry at h
      split at h
      · cases h
      · cases h
        rfl

/-! ## Files written in place -/

theorem ne_root_of_node? (h : d.node? q ≠ some .directory) : q ≠ [] := fun hq =>
  h (hq ▸ node?_root d)

/-- What is found at a place that was opened for writing, and how it looks with bytes in it. -/
theorem openEmpty_eq_ok {p : Path} {opened : Disk} (h : d.openEmpty p = .ok (q, opened)) :
    d.target p = .ok (q, d.node? q) ∧ q ≠ []
      ∧ ((d.node? q = none ∧ ∀ block, opened.write q block = (d.putNew q block.get).2)
        ∨ ∃ f, d.node? q = some (.file f)
          ∧ ∀ block, opened.write q block = d.put q (.file { f with block })) := by
  unfold openEmpty at h
  split at h
  · cases h
  · cases h
  · next q f ht =>
    cases h
    have hn := node?_of_target ht (by simp)
    have hq : q ≠ [] := ne_root_of_node? (d := d) (by simp [hn])
    refine ⟨hn ▸ ht, hq, .inr ⟨f, hn, fun block => ?_⟩⟩
    rw [write_of_file hn, write_put d hq]
  · next q ht =>
    cases h
    have hn := node?_of_target ht (by simp)
    have hq : q ≠ [] := ne_root_of_node? (d := d) (by simp [hn])
    exact ⟨hn ▸ ht, hq, .inl ⟨hn, fun block => write_putNew d hq _ block⟩⟩

theorem overwriteOn_of_opened {device : Device} {p : Path} {opened : Disk}
    (h : d.openEmpty p = .ok (q, opened)) (contents : ByteArray) :
    d.overwriteOn device p contents = match device.fault? contents with
      | none => (.ok (), opened.write q contents)
      | some (taken, e) => (.error e, opened.write q (contents.extract 0 taken)) := by
  cases hfault : device.fault? contents with
  | none => simp only [overwriteOn, h, hfault]
  | some fault => simp only [overwriteOn, h, hfault]

theorem overwriteOn_of_refused {device : Device} {p : Path} {e : DiskFault}
    (h : d.openEmpty p = .error e) (contents : ByteArray) :
    d.overwriteOn device p contents = (.error e, d) := by
  simp only [overwriteOn, h]

/-- A device that takes all bytes writes them into the file that was opened. -/
theorem overwrite_of_opened {p : Path} {opened : Disk} (h : d.openEmpty p = .ok (q, opened))
    (contents : ByteArray) : d.overwrite p contents = .ok (opened.write q contents) := by
  rw [overwrite, overwriteOn_of_opened h]
  rfl

theorem overwrite_eq_ok_iff {p : Path} {contents : ByteArray} :
    d.overwrite p contents = .ok d' ↔ ∃ q opened, d.openEmpty p = .ok (q, opened)
      ∧ d' = opened.write q contents := by
  constructor
  · intro h
    cases hopen : d.openEmpty p with
    | error e =>
      rw [overwrite, overwriteOn_of_refused hopen] at h
      cases h
    | ok opened =>
      exact ⟨_, _, rfl, (Except.ok.inj ((overwrite_of_opened hopen _).symm.trans h)).symm⟩
  · rintro ⟨q, opened, hopen, rfl⟩
    exact overwrite_of_opened hopen contents

/-- Writing a file in place makes it, or gives it other contents. -/
theorem overwrite_eq_ok {p : Path} {contents : ByteArray} (h : d.overwrite p contents = .ok d') :
    ∃ q, d.target p = .ok (q, d.node? q)
      ∧ ((d.node? q = none ∧ d' = (d.putNew q contents).2)
        ∨ ∃ f, d.node? q = some (.file f) ∧ d' = d.put q (.file { f with block := contents })) := by
  obtain ⟨q, opened, hopen, rfl⟩ := overwrite_eq_ok_iff.1 h
  obtain ⟨ht, -, ⟨hn, hwrite⟩ | ⟨f, hf, hwrite⟩⟩ := openEmpty_eq_ok hopen
  · exact ⟨q, ht, .inl ⟨hn, hwrite _⟩⟩
  · exact ⟨q, ht, .inr ⟨f, hf, hwrite _⟩⟩

/-- Where a file is, writing gives it other bytes. -/
theorem overwrite_of_file {p : Path} {f : File} (ht : d.target p = .ok (q, some (.file f)))
    (contents : ByteArray) :
    d.overwrite p contents = .ok (d.put q (.file { f with block := contents })) := by
  have hopen : d.openEmpty p = .ok (q, d.write q ByteArray.empty) := by rw [openEmpty, ht]
  have hn := node?_of_target ht (by simp)
  rw [overwrite_of_opened hopen, write_of_file hn,
    write_put d (ne_root_of_node? (d := d) (by simp [hn]))]

/-! ## Directories that are there -/

theorem steps_eq_of_dropWhile {ss : List String} {last : String} {before : List String}
    (h : ss.reverse.dropWhile (· = "") = last :: before) :
    ∃ empties, ss = before.reverse ++ (last :: empties) ∧ ∀ s ∈ empties, s = "" := by
  refine ⟨(ss.reverse.takeWhile (· = "")).reverse, ?_, ?_⟩
  · have hsplit := List.takeWhile_append_dropWhile (p := fun s => decide (s = "")) (l := ss.reverse)
    rw [h] at hsplit
    have := congrArg List.reverse hsplit
    simpa using this.symm
  · intro s hs
    simpa using List.all_eq_true.1 List.all_takeWhile s (List.mem_reverse.1 hs)

/-- The walk to a directory, cut at the last step of its path that is not empty. -/
theorem walk_last {last : String} {before : List String}
    (h : d.find dir = .ok (place, .directory))
    (hends : (steps dir).reverse.dropWhile (· = "") = last :: before) :
    ∃ p, d.walk (d.origin dir) before.reverse = .ok p ∧ d.node? p = some .directory
      ∧ d.walk p [last] = .ok place := by
  obtain ⟨-, hs, -⟩ := find_directory_iff.1 h
  obtain ⟨empties, hsteps, hempty⟩ := steps_eq_of_dropWhile hends
  rw [hsteps, walk_append] at hs
  cases hp : d.walk (d.origin dir) before.reverse with
  | error e => simp [hp, Except.bind] at hs
  | ok p =>
    simp only [hp, Except.bind] at hs
    refine ⟨p, rfl, node?_of_walk_cons hs, ?_⟩
    rw [← List.singleton_append, walk_append] at hs
    cases hlast : d.walk p [last] with
    | error e => simp [hlast, Except.bind] at hs
    | ok r =>
      simp only [hlast, Except.bind] at hs
      rw [eq_of_walk_empties hempty hs]

theorem makeOne_of_find (h : d.find dir = .ok (place, .directory)) :
    d.makeOne dir = .error .alreadyExists := by
  obtain ⟨hw, -, hn⟩ := find_directory_iff.1 h
  unfold makeOne ending
  rw [hw]
  cases hends : (steps dir).reverse.dropWhile (· = "") with
  | nil => simp [bind, Except.bind, pure, Except.pure, throw, throwThe, MonadExceptOf.throw]
  | cons last before =>
    obtain ⟨p, hp, hdir, hlast⟩ := walk_last h hends
    by_cases hdots : last = "." ∨ last = ".."
    · have hwalk : d.walk (d.origin dir) (before.reverse ++ [last]) = .ok place := by
        rw [walk_append, hp]
        exact hlast
      simp [hdots, hwalk, bind, Except.bind, pure, Except.pure, throw, throwThe,
        MonadExceptOf.throw]
    · have hwalk : d.walk (d.origin dir) (before.reverse ++ ["."]) = .ok p := by
        rw [walk_append, hp]
        simp [Except.bind, walk, hdir]
      obtain ⟨hdot, hdots'⟩ := not_or.1 hdots
      have hne : last ≠ "" := by
        have := List.head?_dropWhile_not (fun s => decide (s = "")) (steps dir).reverse
        simpa [hends] using this
      have hlong : ¬ longestName < last.utf8ByteSize := by
        intro hl
        simp [walk, hdir, hne, hdot, hdots', hl] at hlast
      obtain rfl : place = p ++ [last] := by
        simpa [walk, hdir, hne, hdot, hdots', hlong] using hlast.symm
      simp [hdots, hwalk, entry, hlong, hn, bind, Except.bind, pure, Except.pure, throw,
        throwThe, MonadExceptOf.throw]

theorem makeDirectory_of_find (h : d.find dir = .ok (place, .directory)) :
    d.makeDirectory dir = (.ok (), d) := by
  have hdir := text_ne_empty (find_directory_iff.1 h).1
  have hone : d.ensureOne dir = .ok d := by
    simp [ensureOne, makeOne_of_find h, isDirectory, h]
  rw [makeDirectory, Path.ancestors, if_neg hdir, ensureAll, hone]

end OffsetAtlas.Disk
