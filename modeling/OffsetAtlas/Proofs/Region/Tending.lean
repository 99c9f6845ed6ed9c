/-
OffsetAtlas.Proofs.Region.Tending — what one call leaves of a region directory.

A `Home` is a region directory with the names that its regions may have, none of which is the name
of a lock. A call that hands out a region leaves exactly one hold more and, if nothing stood under
the name, one file (`Gained`). A call that fails leaves every file that somebody holds
(`Untouched`). `Settles` says both of a call, whatever its answer is.

The reason why failures behind the region are as harmless as failures in front of it is
`Gained.release`: letting go of what was just gained leaves the host untouched, because the hold
that is given up is the last one exactly if nobody held the file before.
-/
import OffsetAtlas.Proofs.Attempt.Quiet
import OffsetAtlas.Proofs.Region.Sharing
import OffsetAtlas.Session

namespace OffsetAtlas

open Disk (Grows)
open Region (Filling fitted holdBelow lockedDisk zeros)

/-! ## Homes -/

/-- A region directory, where its path leads, and the names of its regions. -/
structure Home where
  dir : Path
  place : Place
  names : String → Prop
  fits : ∀ {n}, names n → FitsBelow dir n
  fitsLock : ∀ {n}, names n → FitsBelow dir (lockName n)
  apart : ∀ {m n}, names m → names n → m ≠ lockName n

namespace Home

variable {c : Home} {d d' : Disk} {holds : List FileId} {n : String} {q : Place} {f : File}
  {r : Region} {h h' h'' : Host} {id : FileId}

/-- Where the region of a name stands. -/
def regionPlace (c : Home) (n : String) : Place :=
  c.place ++ [n]

/-- Where the lock of a name stands. -/
def lockPlace (c : Home) (n : String) : Place :=
  c.place ++ [lockName n]

theorem regionPlace_ne_lockPlace {m n : String} (hm : c.names m) (hn : c.names n) :
    c.regionPlace m ≠ c.lockPlace n := by
  simpa [regionPlace, lockPlace] using c.apart hm hn

theorem regionPlace_injective {m n : String} (h : c.regionPlace m = c.regionPlace n) : m = n := by
  simpa [regionPlace] using h

theorem node?_erase_regionPlace (c : Home) (d : Disk) (n : String) :
    (d.erase (c.regionPlace n)).node? (c.regionPlace n) = none := by
  simp [Disk.node?_erase, regionPlace]

theorem node?_putNew_regionPlace (c : Home) (d : Disk) (n : String) (contents : ByteArray) :
    (d.putNew (c.regionPlace n) contents).2.node? (c.regionPlace n)
      = some (.file ⟨⟨d.nextId⟩, contents⟩) := by
  simp [Disk.node?_putNew, regionPlace]

theorem node?_locked_regionPlace (c : Home) (d : Disk) (n : String) :
    (lockedDisk d c.place n).node? (c.regionPlace n) = d.node? (c.regionPlace n) :=
  Region.node?_lockedDisk d c.place n

/-! ## Tended directories -/

/-- A directory without faults, and holds on files that have been made. -/
structure Tended (c : Home) (d : Disk) (holds : List FileId) : Prop where
  sane : d.Sane
  found : d.find c.dir = .ok (c.place, .directory)
  lockFree : ∀ {n}, c.names n → d.node? (c.lockPlace n) ≠ some .directory
  given : ∀ id ∈ holds, id.index < d.nextId

theorem Tended.ready (ht : c.Tended d holds) (hn : c.names n) :
    Region.Ready d c.dir c.place n :=
  ⟨ht.found, c.fits hn, c.fitsLock hn, ht.lockFree hn⟩

theorem Tended.file?_iff (ht : c.Tended d holds) (hn : c.names n) :
    d.file? (c.dir.join n) = some f ↔ d.node? (c.regionPlace n) = some (.file f) := by
  rw [Disk.file?, Disk.find_join ht.found (c.fits hn), regionPlace]
  cases d.node? (c.place ++ [n]) with
  | none => simp
  | some node => cases node <;> simp

theorem Tended.locked (ht : c.Tended d holds) (n : String) :
    c.Tended (lockedDisk d c.place n) holds where
  sane := ht.sane.touched _
  found := Disk.find_touched ht.found
  lockFree hm hdir := ht.lockFree hm (Disk.directory_of_node?_touched hdir)
  given id hid := Nat.lt_of_lt_of_le (ht.given id hid) (Grows.touched _ _).next

theorem Tended.putNew (ht : c.Tended d holds) (hq : d.node? q ≠ some .directory)
    (contents : ByteArray) : c.Tended (d.putNew q contents).2 (⟨d.nextId⟩ :: holds) where
  sane := ht.sane.putNew q contents
  found := Disk.find_putNew ht.found hq contents
  lockFree hm hdir := ht.lockFree hm (Disk.directory_of_node?_putNew hdir)
  given id hid := by
    rcases List.mem_cons.1 hid with rfl | hid
    · exact Nat.lt_succ_self _
    · exact Nat.lt_succ_of_lt (ht.given id hid)

theorem Tended.spent (ht : c.Tended d holds) : c.Tended d.spent holds where
  sane := ht.sane.spent
  found := Disk.find_spent ht.found
  lockFree := ht.lockFree
  given id hid := Nat.lt_succ_of_lt (ht.given id hid)

theorem Tended.erase (ht : c.Tended d holds) (hq : d.node? q = some (.file f)) :
    c.Tended (d.erase q) holds where
  sane := ht.sane.erase q
  found := Disk.find_erase ht.found (by simp [hq])
  lockFree hm hdir := ht.lockFree hm (Disk.directory_of_node?_erase hdir)
  given := ht.given

theorem Tended.hold (ht : c.Tended d holds) (hq : d.node? q = some (.file f)) :
    c.Tended d (f.id :: holds) where
  sane := ht.sane
  found := ht.found
  lockFree := ht.lockFree
  given id hid := by
    rcases List.mem_cons.1 hid with rfl | hid
    · exact ht.sane.given hq
    · exact ht.given id hid

theorem Tended.of_subset {fewer : List FileId} (ht : c.Tended d holds) (hsub : fewer ⊆ holds) :
    c.Tended d fewer :=
  ⟨ht.sane, ht.found, ht.lockFree, fun id hid => ht.given id (hsub hid)⟩

/-- Locking makes at most the lock. -/
theorem node?_locked (d : Disk) (c : Home) (n : String) (q : Place) :
    (lockedDisk d c.place n).node? q = d.node? q
      ∨ (d.node? q = none ∧ q = c.lockPlace n) := by
  by_cases hq : q = c.lockPlace n
  · subst hq
    cases hn : d.node? (c.lockPlace n) with
    | none => exact .inr ⟨rfl, rfl⟩
    | some node =>
      have hsame : lockedDisk d c.place n = d := by
        rw [lockedDisk, Disk.touched]
        rw [lockPlace] at hn
        rw [hn]
      rw [hsame, hn]
      exact .inl rfl
  · exact .inl (Disk.node?_touched_of_ne hq)

end Home

/-! ## Handles -/

namespace Region

variable {r : Region} {d d' : Disk} {q : Place} {f : File}

/-- The file that a region shows. -/
def backingFile? (r : Region) : Option FileId :=
  match r.backing with
  | .anonymous => none
  | .mapped id _ => some id
  | .held hold => some hold.file

/-- The file that a region keeps from being deleted. -/
def heldFile? (r : Region) : Option FileId :=
  r.hold?.map Hold.file

/-- A region whose file, if the disk still has it, has the region's bytes. -/
structure Current (r : Region) (d : Disk) : Prop where
  given : ∀ id, r.backingFile? = some id → id.index < d.nextId
  same : ∀ q f, d.node? q = some (.file f) → r.backingFile? = some f.id → f.contents = r.bytes

theorem Current.grows (hr : r.Current d) (hg : Grows d d') : r.Current d' where
  given id hid := Nat.lt_of_lt_of_le (hr.given id hid) hg.next
  same q f hq hid := hr.same q f (hg.same hq (hr.given _ hid)) hid

/-- Looking at any file again shows nothing new. -/
theorem Current.reread (hr : r.Current d) (hq : d.node? q = some (.file f)) :
    Session.reread f r = r := by
  have hfile : ∀ id, r.backingFile? = some id → id = f.id →
      { r with bytes := fitted r.bytes.size f.contents } = r := by
    rintro id hid rfl
    rw [hr.same q f hq hid, fitted, if_pos rfl]
  obtain ⟨name, role, bytes, backing⟩ := r
  unfold Session.reread
  cases backing with
  | anonymous => rfl
  | mapped id path =>
    simp only [Option.some.injEq]
    split
    · next hid => exact hfile id rfl hid
    · rfl
  | held hold =>
    simp only [Option.some.injEq]
    split
    · next hid => exact hfile hold.file rfl hid
    · rfl

theorem backingFile?_of_hold {hold : Hold} (h : r.hold? = some hold) :
    r.backingFile? = some hold.file := by
  unfold hold? at h
  unfold backingFile?
  split at h
  · next hb =>
    cases h
    rw [hb]
  · cases h

end Region

namespace Home

variable {c : Home} {d d' : Disk} {holds : List FileId} {n : String} {q : Place} {f : File}
  {r : Region} {h h' h'' : Host} {id : FileId}

/-! ## Letting go and removing -/

/-- Letting go of a hold locks, gives up the hold, and deletes the file if it is still the one under
the name and nobody else holds it. -/
theorem releaseHold_cases (ht : c.Tended h.disk h.holds) (hn : c.names n)
    (hx : Region.releaseHold (holdBelow c.dir n id) h = h') :
    h'.holds = h.holds.erase id
      ∧ ((∃ f, h.disk.node? (c.regionPlace n) = some (.file f) ∧ f.id = id
            ∧ id ∉ h.holds.erase id
            ∧ h'.disk = (lockedDisk h.disk c.place n).erase (c.regionPlace n))
        ∨ (((∀ f, h.disk.node? (c.regionPlace n) = some (.file f) → f.id ≠ id)
            ∨ id ∈ h.holds.erase id) ∧ h'.disk = lockedDisk h.disk c.place n)) := by
  have hr := ht.ready hn
  have hlocked := ht.locked n
  have hnode := node?_locked_regionPlace c h.disk n
  have htouch : h.disk.touch (holdBelow c.dir n id).lockPath
      = .ok (lockedDisk h.disk c.place n) := Disk.touch_join hr.found hr.fitsLock hr.lockFree
  have hnamed : Region.stillNamed (lockedDisk h.disk c.place n) (holdBelow c.dir n id) = true
      ↔ ∃ f, h.disk.node? (c.regionPlace n) = some (.file f) ∧ f.id = id := by
    rw [Region.stillNamed, decide_eq_true_iff, Option.map_eq_some_iff]
    exact exists_congr fun f => and_congr_left' (by rw [← hnode]; exact hlocked.file?_iff hn)
  unfold Region.releaseHold at hx
  rw [htouch] at hx
  simp only at hx
  split at hx
  · next hlast =>
    obtain ⟨f, hf, hid⟩ := hnamed.1 hlast.1
    have hremove : (lockedDisk h.disk c.place n).remove (holdBelow c.dir n id).path
        = .ok ((lockedDisk h.disk c.place n).erase (c.regionPlace n)) := by
      rw [holdBelow, Disk.remove_join hlocked.found hr.fits, ← regionPlace, hnode, hf]
    rw [hremove] at hx
    subst hx
    exact ⟨rfl, .inl ⟨f, hf, hid, hlast.2, rfl⟩⟩
  · next hlast =>
    subst hx
    refine ⟨rfl, .inr ⟨?_, rfl⟩⟩
    by_cases hmore : id ∈ h.holds.erase id
    · exact .inr hmore
    · exact .inl fun f hf hid => hlast ⟨hnamed.2 ⟨f, hf, hid⟩, hmore⟩

/-- Taking away what stands under a name, if it is a file. -/
theorem unlock_cases (ht : c.Tended d holds) (hn : c.names n)
    (hx : (d.remove (c.dir.join (lockName n))).toOption.getD d = d') :
    c.Tended d' holds ∧ Grows d d'
      ∧ ∀ q, d'.node? q = d.node? q ∨ (d'.node? q = none ∧ q = c.lockPlace n) := by
  rw [Disk.remove_join ht.found (c.fitsLock hn), ← lockPlace] at hx
  cases hnode : d.node? (c.lockPlace n) with
  | none =>
    rw [hnode] at hx
    subst hx
    exact ⟨ht, Grows.refl d, fun _ => .inl rfl⟩
  | some node =>
    cases node with
    | directory => exact absurd hnode (ht.lockFree hn)
    | file f =>
      rw [hnode] at hx
      subst hx
      refine ⟨ht.erase hnode, Grows.erase d _, fun q => ?_⟩
      by_cases hq : q = c.lockPlace n
      · subst hq
        exact .inr ⟨by simp [Except.toOption, Disk.node?_erase, lockPlace], rfl⟩
      · exact .inl (Disk.node?_erase_of_ne d hq)

/-- Removing a region takes away what stands under its name and its lock, and nothing else. -/
theorem remove_cases (ht : c.Tended h.disk h.holds) (hn : c.names n)
    (hx : (Region.remove c.dir n h).2 = h') :
    c.Tended h'.disk h'.holds ∧ Grows h.disk h'.disk ∧ h'.holds = h.holds
      ∧ (h.disk.node? (c.regionPlace n) ≠ some .directory →
        h'.disk.node? (c.regionPlace n) = none)
      ∧ ∀ m, c.names m → m ≠ n →
        h'.disk.node? (c.regionPlace m) = h.disk.node? (c.regionPlace m) := by
  have hremove := Disk.remove_join ht.found (c.fits hn)
  rw [← regionPlace] at hremove
  have hother : ∀ {d d' : Disk}, (∀ q, d'.node? q = d.node? q
      ∨ (d'.node? q = none ∧ q = c.lockPlace n)) → ∀ m, c.names m →
      d'.node? (c.regionPlace m) = d.node? (c.regionPlace m) := by
    intro d d' hd m hm
    exact (hd _).resolve_right fun hq => regionPlace_ne_lockPlace hm hn hq.2
  unfold Region.remove at hx
  cases hnode : h.disk.node? (c.regionPlace n) with
  | none =>
    rw [hnode] at hremove
    simp only [hremove] at hx
    subst hx
    obtain ⟨ht', hg, hd⟩ := unlock_cases ht hn rfl
    exact ⟨ht', hg, rfl, fun _ => (hother hd n hn).trans hnode, fun m hm _ => hother hd m hm⟩
  | some node =>
    cases node with
    | directory =>
      rw [hnode] at hremove
      simp only [hremove] at hx
      subst hx
      exact ⟨ht, Grows.refl _, rfl, fun hne => absurd rfl hne, fun _ _ _ => rfl⟩
    | file f =>
      rw [hnode] at hremove
      simp only [hremove] at hx
      subst hx
      obtain ⟨ht', hg, hd⟩ := unlock_cases (ht.erase hnode) hn rfl
      refine ⟨ht', (Grows.erase _ _).trans hg, rfl, fun _ => ?_, fun m hm hmn => ?_⟩
      · exact (hother hd n hn).trans (node?_erase_regionPlace c h.disk n)
      · rw [hother hd m hm]
        exact Disk.node?_erase_of_ne _ fun hq => hmn (regionPlace_injective hq)

/-! ## Calls -/

/-- What a call leaves that hands out a region. -/
inductive Gained (c : Home) (r : Region) (h h' : Host) : Prop
  /-- The region is no shared one. -/
  | alone : r.hold? = none → r.Current h.disk → h'.disk = h.disk → h'.holds = h.holds →
      Gained c r h h'
  /-- The region is new, and so is its file. -/
  | made {n : String} : c.names n → h.disk.node? (c.regionPlace n) = none →
      r.backing = .held (holdBelow c.dir n ⟨(lockedDisk h.disk c.place n).nextId⟩) →
      h'.disk = ((lockedDisk h.disk c.place n).putNew (c.regionPlace n) r.bytes).2 →
      h'.holds = ⟨(lockedDisk h.disk c.place n).nextId⟩ :: h.holds → Gained c r h h'
  /-- The region is the file that was there. -/
  | attached {n : String} {f : File} : c.names n →
      h.disk.node? (c.regionPlace n) = some (.file f) →
      r.backing = .held (holdBelow c.dir n f.id) → f.contents = r.bytes →
      h'.disk = lockedDisk h.disk c.place n → h'.holds = f.id :: h.holds → Gained c r h h'

/-- What a call leaves that fails. -/
structure Untouched (c : Home) (h h' : Host) : Prop where
  tended : c.Tended h'.disk h'.holds
  grows : Grows h.disk h'.disk
  holds : h'.holds = h.holds
  /-- A place is as it was, or there is a new lock, or a region is gone that nobody held. -/
  nodes : ∀ q, h'.disk.node? q = h.disk.node? q
    ∨ (h.disk.node? q = none ∧ ∃ n, c.names n ∧ q = c.lockPlace n)
    ∨ (h'.disk.node? q = none ∧ (∃ n, c.names n ∧ q = c.regionPlace n)
        ∧ ∃ f, h.disk.node? q = some (.file f) ∧ f.id ∉ h.holds)

/-- A call that hands out its region or leaves the host untouched. -/
structure Settles {α : Type} (c : Home) (region : α → Region) (h : Host)
    (x : Except Failure α × Host) : Prop where
  gained : ∀ a, x.1 = .ok a → c.Gained (region a) h x.2
  failed : ∀ e, x.1 = .error e → c.Untouched h x.2

theorem Settles.of_ok {α : Type} {region : α → Region} {a : α} (hg : c.Gained (region a) h h') :
    c.Settles region h (.ok a, h') where
  gained a' ha := by
    cases ha
    exact hg
  failed _ he := nomatch he

theorem Settles.of_error {α : Type} {region : α → Region} {e : Failure}
    (hu : c.Untouched h h') : c.Settles region h (.error e, h') where
  gained _ ha := nomatch ha
  failed _ _ := hu

theorem Tended.quiet (ht : c.Tended h.disk h.holds) (hq : h.Quiet h') :
    c.Tended h'.disk h'.holds := by
  rwa [hq.disk, hq.holds]

theorem Untouched.of_quiet (ht : c.Tended h.disk h.holds) (hq : h.Quiet h') :
    c.Untouched h h' where
  tended := ht.quiet hq
  grows := hq.disk ▸ Grows.refl _
  holds := hq.holds
  nodes q := .inl (by rw [hq.disk])

theorem Untouched.locked (ht : c.Tended h.disk h.holds) (hn : c.names n)
    (hd : h'.disk = lockedDisk h.disk c.place n) (hh : h'.holds = h.holds) :
    c.Untouched h h' where
  tended := by
    rw [hd, hh]
    exact ht.locked n
  grows := hd ▸ Grows.touched _ _
  holds := hh
  nodes q := by
    rw [hd]
    rcases node?_locked h.disk c n q with hq | ⟨hq, hlock⟩
    · exact .inl hq
    · exact .inr (.inl ⟨hq, n, hn, hlock⟩)

/-- To give an identity away in vain is to leave the host as it is. -/
theorem Untouched.spent (hu : c.Untouched h h') :
    c.Untouched h { h' with disk := h'.disk.spent } where
  tended := hu.tended.spent
  grows := hu.grows.trans (Grows.spent _)
  holds := hu.holds
  nodes := hu.nodes

/-- Making a region or attaching to it settles, whatever a filling that fails has written. -/
theorem settles_createOrAttachBy (ht : c.Tended h.disk h.holds) (hn : c.names n) (size : Nat)
    (filling : Filling) :
    c.Settles (fun r => r) h (Region.createOrAttachBy (.shared c.dir) n size filling h) := by
  have hr := ht.ready hn
  cases hnode : h.disk.node? (c.regionPlace n) with
  | none =>
    rw [Region.createOrAttachBy_of_none hr hnode]
    rcases filling.run (zeros size) with ⟨e | ⟨⟩, left⟩
    · have hu : c.Untouched h { h with disk := lockedDisk h.disk c.place n } :=
        .locked ht hn rfl rfl
      exact .of_error hu.spent
    · exact .of_ok (.made hn hnode rfl rfl rfl)
  | some node =>
    cases node with
    | directory =>
      rw [Region.createOrAttachBy_of_directory hr hnode]
      exact .of_error (Untouched.locked ht hn rfl rfl)
    | file f =>
      rw [Region.createOrAttachBy_of_file hr hnode]
      simp only
      split
      · exact .of_ok (.attached hn hnode rfl rfl rfl rfl)
      · exact .of_error (Untouched.locked ht hn rfl rfl)

end Home

end OffsetAtlas
