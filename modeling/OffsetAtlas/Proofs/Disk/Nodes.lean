/-
OffsetAtlas.Proofs.Disk.Nodes — what a disk holds after a change, and which files are the same.

`node?_put`, `node?_erase` and `node?_putNew` say what every place holds after the three changes
that operations are made of; the proofs about operations cite them and never look at the list of
nodes. A file that is made, written and deleted again leaves nothing but the loss of an identity
(`write_putNew`, `erase_putNew`). Two facts about identities ride along: `Sane` says that no file is
newer than the next identity and that no two places hold one file, and `Grows` says that one disk
comes after another by making and deleting files only, so that a file with an old identity is as it
was.
-/
import OffsetAtlas.Disk.Change

namespace OffsetAtlas

namespace Disk

/-! ## What places hold -/

@[simp] theorem node?_root (d : Disk) : d.node? [] = some .directory := rfl

theorem lookup_filter_ne (nodes : List (Place × Node)) (place q : Place) :
    (nodes.filter (·.1 ≠ place)).lookup q = if q = place then none else nodes.lookup q := by
  induction nodes with
  | nil => simp
  | cons n nodes ih =>
    obtain ⟨p, node⟩ := n
    by_cases hp : p = place
    · rw [List.filter_cons_of_neg (by simp [hp]), ih]
      by_cases hq : q = place
      · simp [hq]
      · have hqp : (q == p) = false := by simp [hp, hq]
        simp [hq, List.lookup_cons, hqp]
    · rw [List.filter_cons_of_pos (by simp [hp]), List.lookup_cons, List.lookup_cons, ih]
      by_cases hqp : q = p
      · subst hqp
        simp [hp]
      · have hqp' : (q == p) = false := by simp [hqp]
        simp [hqp']

theorem node?_put (d : Disk) (place : Place) (node : Node) (q : Place) :
    (d.put place node).node? q
      = if q = [] then some .directory else if q = place then some node else d.node? q := by
  by_cases hq : q = []
  · simp [node?, hq]
  · by_cases hp : q = place
    · simp [node?, put, hp]
    · have hqp : (q == place) = false := by simp [hp]
      simp only [node?, put, if_neg hq, if_neg hp, List.lookup_cons, hqp, lookup_filter_ne]

theorem node?_erase (d : Disk) (place q : Place) :
    (d.erase place).node? q
      = if q = [] then some .directory else if q = place then none else d.node? q := by
  by_cases hq : q = []
  · simp [node?, hq]
  · simp only [node?, erase, if_neg hq, lookup_filter_ne]

theorem node?_putNew (d : Disk) (place : Place) (contents : ByteArray) (q : Place) :
    (d.putNew place contents).2.node? q
      = if q = [] then some .directory
        else if q = place then some (.file ⟨⟨d.nextId⟩, contents⟩) else d.node? q :=
  node?_put d place _ q

theorem node?_put_of_ne (d : Disk) {place : Place} (node : Node) {q : Place} (hq : q ≠ place) :
    (d.put place node).node? q = d.node? q := by
  rw [node?_put, if_neg hq]
  split
  · next hroot => rw [hroot, node?_root]
  · rfl

theorem node?_erase_of_ne (d : Disk) {place q : Place} (hq : q ≠ place) :
    (d.erase place).node? q = d.node? q := by
  rw [node?_erase, if_neg hq]
  split
  · next hroot => rw [hroot, node?_root]
  · rfl

theorem node?_putNew_of_ne (d : Disk) {place : Place} (contents : ByteArray) {q : Place}
    (hq : q ≠ place) : (d.putNew place contents).2.node? q = d.node? q :=
  node?_put_of_ne d _ hq

/-- Putting a file somewhere makes no directory. -/
theorem directory_of_node?_put {d : Disk} {place q : Place} {f : File}
    (h : (d.put place (.file f)).node? q = some .directory) : d.node? q = some .directory := by
  by_cases hq : q = place
  · subst hq
    rw [node?_put, if_pos rfl] at h
    split at h
    · next hroot => rw [hroot, node?_root]
    · cases h
  · rw [← h, node?_put_of_ne d _ hq]

theorem directory_of_node?_putNew {d : Disk} {place q : Place} {contents : ByteArray}
    (h : (d.putNew place contents).2.node? q = some .directory) : d.node? q = some .directory :=
  directory_of_node?_put h

theorem directory_of_node?_erase {d : Disk} {place q : Place}
    (h : (d.erase place).node? q = some .directory) : d.node? q = some .directory := by
  rw [node?_erase] at h
  split at h
  · next hroot => rw [hroot, node?_root]
  · split at h
    · cases h
    · exact h

/-- A file that is looked up after a file was made is the new one or was there before. -/
theorem file_of_node?_putNew {d : Disk} {place q : Place} {contents : ByteArray} {f : File}
    (h : (d.putNew place contents).2.node? q = some (.file f)) :
    (q = place ∧ f = ⟨⟨d.nextId⟩, contents⟩) ∨ d.node? q = some (.file f) := by
  rw [node?_putNew] at h
  split at h
  · cases h
  · split at h
    · next hq =>
      cases h
      exact .inl ⟨hq, rfl⟩
    · exact .inr h

/-- A file that is looked up after a deletion was there before, elsewhere. -/
theorem file_of_node?_erase {d : Disk} {place q : Place} {f : File}
    (h : (d.erase place).node? q = some (.file f)) :
    q ≠ place ∧ d.node? q = some (.file f) := by
  rw [node?_erase] at h
  split at h
  · cases h
  · split at h
    · cases h
    · next hq => exact ⟨hq, h⟩

/-- A file that is looked up after a file was written in place is that file with its new contents,
or it was there before, elsewhere. -/
theorem file_of_node?_put {d : Disk} {place q : Place} {f g : File}
    (h : (d.put place (.file g)).node? q = some (.file f)) :
    (q = place ∧ f = g) ∨ (q ≠ place ∧ d.node? q = some (.file f)) := by
  rw [node?_put] at h
  split at h
  · cases h
  · split at h
    · next hq =>
      cases h
      exact .inl ⟨hq, rfl⟩
    · next hq => exact .inr ⟨hq, h⟩

/-! ## Files made, written and deleted again -/

theorem put_put (d : Disk) (place : Place) (node node' : Node) :
    (d.put place node).put place node' = d.put place node' := by
  simp [put]

theorem write_of_file {d : Disk} {place : Place} {f : File}
    (h : d.node? place = some (.file f)) (block : Thunk ByteArray) :
    d.write place block = d.put place (.file { f with block }) := by
  rw [write, h]

theorem write_put (d : Disk) {place : Place} (hp : place ≠ []) (f : File)
    (block : Thunk ByteArray) :
    (d.put place (.file f)).write place block = d.put place (.file { f with block }) := by
  have hnode : (d.put place (.file f)).node? place = some (.file f) := by
    rw [node?_put, if_neg hp, if_pos rfl]
  rw [write_of_file hnode, put_put]

/-- To write into a file that was just made is to make it with those bytes. -/
theorem write_putNew (d : Disk) {place : Place} (hp : place ≠ []) (contents : ByteArray)
    (block : Thunk ByteArray) :
    (d.putNew place contents).2.write place block = (d.putNew place block.get).2 := by
  have hnode : (d.putNew place contents).2.node? place
      = some (.file ⟨⟨d.nextId⟩, contents⟩) := by
    rw [node?_putNew, if_neg hp, if_pos rfl]
  rw [write_of_file hnode]
  simp [putNew, put]
  rfl

/-- The disk once an identity has been given away in vain. -/
def spent (d : Disk) : Disk :=
  { d with nextId := d.nextId + 1 }

/-- A file that is made where nothing is, and deleted again, leaves no trace but its identity. -/
theorem erase_putNew {d : Disk} {place : Place} (hn : d.node? place = none)
    (contents : ByteArray) : (d.putNew place contents).2.erase place = d.spent := by
  have hlookup : d.nodes.lookup place = none := by
    unfold node? at hn
    split at hn
    · cases hn
    · exact hn
  have hfree : ∀ q node, (q, node) ∈ d.nodes → ¬ q = place := by
    rintro q node hmem rfl
    simpa using List.lookup_eq_none_iff.1 hlookup _ hmem
  simpa [putNew, put, erase, spent] using hfree

/-! ## Identities -/

/-- Every file's identity has been given away, and to one place only. -/
structure Sane (d : Disk) : Prop where
  given : ∀ {p f}, d.node? p = some (.file f) → f.id.index < d.nextId
  alone : ∀ {p q f g}, d.node? p = some (.file f) → d.node? q = some (.file g) → f.id = g.id → p = q

theorem Sane.putNew {d : Disk} (h : d.Sane) (place : Place) (contents : ByteArray) :
    (d.putNew place contents).2.Sane where
  given {p f} hp := by
    rcases file_of_node?_putNew hp with ⟨-, rfl⟩ | hp
    · exact Nat.lt_succ_self d.nextId
    · exact Nat.lt_succ_of_lt (h.given hp)
  alone {p q f g} hp hq hid := by
    rcases file_of_node?_putNew hp with ⟨rfl, rfl⟩ | hp
    · rcases file_of_node?_putNew hq with ⟨rfl, -⟩ | hq
      · rfl
      · exact absurd (h.given hq) (by rw [← hid]; exact Nat.lt_irrefl _)
    · rcases file_of_node?_putNew hq with ⟨-, rfl⟩ | hq
      · exact absurd (h.given hp) (by rw [hid]; exact Nat.lt_irrefl _)
      · exact h.alone hp hq hid

theorem Sane.erase {d : Disk} (h : d.Sane) (place : Place) : (d.erase place).Sane where
  given hp := h.given (file_of_node?_erase hp).2
  alone hp hq hid := h.alone (file_of_node?_erase hp).2 (file_of_node?_erase hq).2 hid

theorem Sane.put {d : Disk} (h : d.Sane) {place : Place} {f g : File}
    (hf : d.node? place = some (.file f)) (hid : g.id = f.id) : (d.put place (.file g)).Sane where
  given {p k} hp := by
    rcases file_of_node?_put hp with ⟨-, rfl⟩ | ⟨-, hp⟩
    · rw [hid]
      exact h.given hf
    · exact h.given hp
  alone {p q k l} hp hq hkl := by
    rcases file_of_node?_put hp with ⟨rfl, rfl⟩ | ⟨-, hp'⟩
    · rcases file_of_node?_put hq with ⟨rfl, -⟩ | ⟨-, hq'⟩
      · rfl
      · exact h.alone hf hq' (hid.symm.trans hkl)
    · rcases file_of_node?_put hq with ⟨rfl, rfl⟩ | ⟨-, hq'⟩
      · exact h.alone hp' hf (hkl.trans hid)
      · exact h.alone hp' hq' hkl

theorem Sane.spent {d : Disk} (h : d.Sane) : d.spent.Sane where
  given hp := Nat.lt_succ_of_lt (h.given hp)
  alone := h.alone

/-! ## Later disks -/

/-- A later disk: files have been made and deleted, and those that are older than the change are as
they were. -/
structure Grows (d d' : Disk) : Prop where
  next : d.nextId ≤ d'.nextId
  same : ∀ {q f}, d'.node? q = some (.file f) → f.id.index < d.nextId → d.node? q = some (.file f)

theorem Grows.refl (d : Disk) : Grows d d :=
  ⟨Nat.le_refl _, fun h _ => h⟩

theorem Grows.trans {d d' d'' : Disk} (h : Grows d d') (h' : Grows d' d'') : Grows d d'' where
  next := Nat.le_trans h.next h'.next
  same hq hold := h.same (h'.same hq (Nat.lt_of_lt_of_le hold h.next)) hold

theorem Grows.putNew (d : Disk) (place : Place) (contents : ByteArray) :
    Grows d (d.putNew place contents).2 where
  next := Nat.le_succ _
  same hq hold := by
    rcases file_of_node?_putNew hq with ⟨-, rfl⟩ | hq
    · exact absurd hold (Nat.lt_irrefl _)
    · exact hq

theorem Grows.spent (d : Disk) : Grows d d.spent where
  next := Nat.le_succ _
  same hq _ := hq

theorem Grows.erase (d : Disk) (place : Place) : Grows d (d.erase place) where
  next := Nat.le_refl _
  same hq _ := (file_of_node?_erase hq).2

end Disk

end OffsetAtlas
