/-
OffsetAtlas.Proofs.Database.Sharing — region files that hold what their sources stand for.

A `Sharing` fixes what the users of one region directory have in common: the directory, one encoding
for all their files, and the byte strings that their regions are made from, no two of which have the
same tag. A disk is `Sound` for it if whatever stands under the region name of one of these sources
is a file with the block of that source. Making, attaching to, and deleting regions keeps a disk
sound (`Sound.releaseHold`, `Sound.remove`), and on a sound disk a shared region has the bytes that
a private one would have (`refines_createOrAttach`).

A region in use is `Live`: its file, if the disk still has it, stands under the region's name and
has the region's bytes. Only the identity of the file counts for that, so a region stays live when
its file is deleted, and when another file is made under the same name.
-/
import OffsetAtlas.Proofs.Attempt.Refinement
import OffsetAtlas.Proofs.Database.Encoding
import OffsetAtlas.Proofs.Region.Sharing

namespace OffsetAtlas

open Attempt (Refines)
open Disk (Grows)

/-- What the users of a region directory have in common. -/
structure Sharing where
  dir : Path
  /-- Where the path leads. -/
  place : Place
  encoding : Encoding
  /-- The byte strings that regions are made from. -/
  sources : List UInt8 → Prop
  roomy : Roomy dir
  apart : ∀ {a b}, sources a → sources b → sourceTag a = sourceTag b → a = b

namespace Sharing

variable {c : Sharing} {d d' : Disk} {h : Host} {v : Version} {source : List UInt8} {size : Nat}
  {fill : Unit → Except Failure ByteArray} {r : Region}

/-- Where the region of a source stands. -/
def regionPlace (c : Sharing) (v : Version) (source : List UInt8) : Place :=
  c.place ++ [regionName v source]

/-- Where the lock of a region stands. -/
def lockPlace (c : Sharing) (v : Version) (source : List UInt8) : Place :=
  c.place ++ [lockName (regionName v source)]

theorem regionPlace_ne_lockPlace (c : Sharing) (v w : Version) (a b : List UInt8) :
    c.regionPlace v a ≠ c.lockPlace w b := by
  intro he
  have hnames : regionName v a = lockName (regionName w b) := by
    simpa [regionPlace, lockPlace] using he
  exact lockName_ne_regionName _ v a hnames.symm

/-- A place is the region of one source only, whatever the versions. -/
theorem source_eq_of_regionPlace_eq {v w : Version} {a b : List UInt8} (ha : c.sources a)
    (hb : c.sources b) (he : c.regionPlace v a = c.regionPlace w b) : a = b := by
  have hnames : regionName v a = regionName w b := by simpa [regionPlace] using he
  exact c.apart ha hb (sourceTag_of_regionName_eq hnames)

/-! ## Disks -/

/-- A disk on which every region file of a source holds the block of that source. -/
structure Sound (c : Sharing) (d : Disk) : Prop where
  sane : d.Sane
  found : d.find c.dir = .ok (c.place, .directory)
  lockFree : ∀ v source, d.node? (c.lockPlace v source) ≠ some .directory
  filled : ∀ {v source node}, c.sources source → d.node? (c.regionPlace v source) = some node →
    ∃ f, node = .file f ∧ c.encoding.block? source = some f.contents

theorem Sound.ready (hs : c.Sound d) (v : Version) (source : List UInt8) :
    Region.Ready d c.dir c.place (regionName v source) :=
  ⟨hs.found, fitsBelow_regionName c.roomy v source, fitsBelow_lockName c.roomy v source,
    hs.lockFree v source⟩

theorem Sound.locked (hs : c.Sound d) (v : Version) (source : List UInt8) :
    c.Sound (Region.lockedDisk d c.place (regionName v source)) where
  sane := hs.sane.touched _
  found := Disk.find_touched hs.found
  lockFree w s hdir := hs.lockFree w s (Disk.directory_of_node?_touched hdir)
  filled {w s _} hsource hnode := by
    have hsame : (d.touched (c.lockPlace v source)).node? (c.regionPlace w s) = _ :=
      Disk.node?_touched_of_ne (c.regionPlace_ne_lockPlace w v s source)
    exact hs.filled hsource (hsame.symm.trans hnode)

theorem Sound.putNew (hs : c.Sound d) (hsource : c.sources source) {b : ByteArray}
    (hb : c.encoding.block? source = some b) (hfree : d.node? (c.regionPlace v source) = none) :
    c.Sound (d.putNew (c.regionPlace v source) b).2 where
  sane := hs.sane.putNew _ _
  found := Disk.find_putNew hs.found (by simp [hfree]) _
  lockFree w s hdir := hs.lockFree w s (Disk.directory_of_node?_putNew hdir)
  filled {w s node} hs' hnode := by
    rw [Disk.node?_putNew, if_neg (by simp [regionPlace])] at hnode
    split at hnode
    · next hplace =>
      obtain rfl : s = source := source_eq_of_regionPlace_eq hs' hsource hplace
      cases hnode
      exact ⟨_, rfl, hb⟩
    · exact hs.filled hs' hnode

theorem Sound.spent (hs : c.Sound d) : c.Sound d.spent where
  sane := hs.sane.spent
  found := Disk.find_spent hs.found
  lockFree := hs.lockFree
  filled := hs.filled

theorem Sound.erase (hs : c.Sound d) {q : Place} {f : File} (hq : d.node? q = some (.file f)) :
    c.Sound (d.erase q) where
  sane := hs.sane.erase q
  found := Disk.find_erase hs.found (by simp [hq])
  lockFree w s hdir := hs.lockFree w s (Disk.directory_of_node?_erase hdir)
  filled hsource hnode := by
    rw [Disk.node?_erase, if_neg (by simp [regionPlace])] at hnode
    split at hnode
    · cases hnode
    · exact hs.filled hsource hnode

theorem Sound.remove (hs : c.Sound h.disk) (dir : Path) (name : String) :
    c.Sound (Region.remove dir name h).2.disk ∧ Grows h.disk (Region.remove dir name h).2.disk := by
  refine Region.disk_remove_induction (P := fun d => c.Sound d ∧ Grows h.disk d) dir name h
    ⟨hs, Grows.refl _⟩ ?_
  rintro d q f ⟨hd, hg⟩ hq
  exact ⟨hd.erase hq, hg.trans (Grows.erase d q)⟩

theorem Sound.releaseHold (hs : c.Sound h.disk) (v : Version) (source : List UInt8) (id : FileId) :
    let h' := Region.releaseHold (Region.holdBelow c.dir (regionName v source) id) h
    c.Sound h'.disk ∧ Grows h.disk h'.disk := by
  have hr := hs.ready v source
  have hlocked := hs.locked v source
  have hgrows : Grows h.disk (Region.lockedDisk h.disk c.place (regionName v source)) :=
    Grows.touched _ _
  -- nothing happens, or the lock is made, or a file is deleted behind the lock as well
  rcases Region.disk_releaseHold (Region.holdBelow c.dir (regionName v source) id) h with
    he | ⟨d, htouch, hd⟩
  · simp only [he]
    exact ⟨hs, Grows.refl _⟩
  · obtain rfl : Region.lockedDisk h.disk c.place (regionName v source) = d := by
      simpa [Region.holdBelow, Disk.touch_join hr.found hr.fitsLock hr.lockFree,
        Region.lockedDisk] using htouch
    rcases hd with he | ⟨q, f, hfind, he⟩
    · simp only [he]
      exact ⟨hlocked, hgrows⟩
    · simp only [he]
      exact ⟨hlocked.erase (Disk.node?_of_find hfind), hgrows.trans (Grows.erase _ q)⟩

/-! ## Regions in use -/

/-- A region that shares the file with this identity, made for this version and source. -/
structure Attached (c : Sharing) (v : Version) (source : List UInt8) (id : FileId) (r : Region)
    (d : Disk) : Prop where
  backing : r.backing = .held (Region.holdBelow c.dir (regionName v source) id)
  given : id.index < d.nextId
  same : ∀ {q f}, d.node? q = some (.file f) → f.id = id →
    q = c.regionPlace v source ∧ f.contents = r.bytes

/-- A region whose file, if it is still there, has the region's bytes. -/
def Live (c : Sharing) (r : Region) (d : Disk) : Prop :=
  ∃ v source id, c.Attached v source id r d

theorem Live.grows (hr : c.Live r d) (hg : Grows d d') : c.Live r d' := by
  obtain ⟨v, source, id, hr⟩ := hr
  refine ⟨v, source, id, hr.backing, Nat.lt_of_lt_of_le hr.given hg.next, ?_⟩
  intro q f hq hid
  exact hr.same (hg.same hq (by rw [hid]; exact hr.given)) hid

theorem Sound.release (hs : c.Sound h.disk) {d₀ : Disk} (hr : c.Live r d₀) :
    c.Sound (r.release h).disk ∧ Grows h.disk (r.release h).disk := by
  obtain ⟨v, source, id, hr⟩ := hr
  have hhold : r.hold? = some (Region.holdBelow c.dir (regionName v source) id) := by
    simp [Region.hold?, hr.backing]
  rw [Region.release, hhold]
  exact hs.releaseHold v source id

/-! ## Coming by regions -/

/-- What using regions keeps: the disk is sound, and has only had files made and deleted since. -/
def Kept (c : Sharing) (d : Disk) (h : Host) : Prop :=
  c.Sound h.disk ∧ Grows d h.disk

/-- **A shared region has the bytes of a private one**, found or filled, or fails like it. -/
theorem refines_createOrAttach (hs : c.Sound h.disk) (hsource : c.sources source)
    (hfill : c.encoding.Fills source size fill) (h' : Host) :
    Refines (c.Kept h.disk) Region.unshared (fun r t => c.Live r t.disk)
      (Region.createOrAttach (.shared c.dir) (regionName v source) size fill h)
      (Region.createOrAttach .anonymous (regionName v source) size fill h') := by
  have hr := hs.ready v source
  have hlocked := hs.locked v source
  have hgrows : Grows h.disk (Region.lockedDisk h.disk c.place (regionName v source)) :=
    Grows.touched _ _
  have hnode := Region.node?_lockedDisk h.disk c.place (regionName v source)
  rw [Region.createOrAttach_anonymous]
  cases hn : h.disk.node? (c.regionPlace v source) with
  | none =>
    rw [Region.createOrAttach_of_none hr hn]
    cases hf : fill () with
    | error e => exact .error ⟨hlocked.spent, hgrows.trans (Grows.spent _)⟩
    | ok b =>
      have hb := (hfill.filled b).1 hf
      have hfit : Region.fitted size b = b := if_pos (hfill.sized b hb)
      simp only [hfit]
      have hmade : c.Sound _ := hlocked.putNew hsource hb (hnode.trans hn)
      refine .ok Region.unshared ⟨hmade, hgrows.trans (Grows.putNew _ _ _)⟩
        ⟨v, source, _, rfl, Nat.lt_succ_self _, ?_⟩
      -- the identity is new, so the only file with it is the one just made
      intro q f hq hid
      rcases Disk.file_of_node?_putNew hq with ⟨hplace, rfl⟩ | hold
      · exact ⟨hplace, rfl⟩
      · exact absurd (hlocked.sane.given hold) (by rw [hid]; exact Nat.lt_irrefl _)
  | some node =>
    obtain ⟨f, rfl, hb⟩ := hs.filled hsource hn
    have hfit : Region.fitted size f.contents = f.contents := if_pos (hfill.sized _ hb)
    rw [Region.createOrAttach_of_file hr hn, (hfill.filled _).2 hb]
    simp only [hfill.sized _ hb, if_true, hfit]
    have hthere := hnode.trans hn
    refine .ok Region.unshared ⟨hlocked, hgrows⟩
      ⟨v, source, f.id, rfl, hlocked.sane.given hthere, ?_⟩
    intro q g hq hid
    obtain rfl := hlocked.sane.alone hq hthere hid
    obtain rfl : f = g := by simpa using hthere.symm.trans hq
    exact ⟨rfl, rfl⟩

end Sharing

end OffsetAtlas
