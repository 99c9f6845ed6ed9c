/-
OffsetAtlas.Proofs.Session.Sharing — sessions in which shared regions cannot be told from private
ones.

Main statement: start with a region directory without regions, then open databases of one encoding
with their regions in that directory, drop them, delete regions, and let the other files of the disk
change, in any order and any number of times. Then each database that could be opened next is
answered as with a private region, and every database still in use is the one that was handed out,
also when the files that it maps are looked at again (`Reached.invisible`).

What a move can do is `Move.apply`, and which moves are meant is `Sharing.MayMove`. The invariant is
`Orderly`: the disk is sound, and each database is live on it and was handed out. One move keeps it
(`Orderly.move`), hence every session that is reached has it (`Reached.orderly`).
-/
import OffsetAtlas.Proofs.Database.Attaching
import OffsetAtlas.Proofs.Database.Decoding
import OffsetAtlas.Proofs.Database.Opening
import OffsetAtlas.Session

namespace OffsetAtlas

open Attempt (Refines)
open Disk (Grows)
open Region (lockedDisk)

/-! ## Moves -/

/-- A way to open a database. -/
inductive Opening where
  /-- A file that is known. -/
  | load (source : Source) (running : Version) (config : Config)
  /-- The file of a version, wherever it is. -/
  | find (running : Version) (config : Config)

/-- Opens a database with its region in a location, whatever the configuration says about that. -/
def Opening.run (o : Opening) (location : RegionLocation) : HostM Database :=
  match o with
  | .load source running config => Database.load source running { config with region := location }
  | .find running config => Database.find { config with region := location } running

namespace Session

/-- The session once a file that was written has been looked at by those who map it. -/
def see (s : Session) (f : File) : Session :=
  { s with
    databases := s.databases.map fun named => (named.1, rereadDatabase f named.2)
    regions := s.regions.map fun named => (named.1, reread f named.2)
    installed := s.installed.map (rereadDatabase f) }

/-- The session on a changed disk, on which some files were written in place. -/
def rewrite (s : Session) (d : Disk) (written : List File) : Session :=
  written.foldl see { s with host := { s.host with disk := d } }

end Session

/-- What happens in a session. -/
inductive Move where
  /-- A database is opened and kept under a name; what had the name is dropped. -/
  | open (name : String) (opening : Opening)
  /-- A database is dropped. -/
  | drop (name : String)
  /-- A region is deleted, here or in any other directory, whoever holds it. -/
  | remove (dir : Path) (region : String)
  /-- The disk is changed by someone, and some files were written in place. -/
  | rewrite (disk : Disk) (written : List File)

namespace Move

variable (c : Sharing)

/-- The session after a move, when databases are opened with shared regions. -/
def apply : Move → Session → Session
  | .open name opening, s => (s.takeDatabase name (opening.run (.shared c.dir))).2
  | .drop name, s => (s.dropDatabase name).2
  | .remove dir region, s => (s.run (Region.remove dir region)).2
  | .rewrite d written, s => s.rewrite d written

/-- The database that a move hands out, and its name. -/
def handsOut : Move → Session → List (String × Database)
  | .open name opening, s =>
    match (s.takeDatabase name (opening.run (.shared c.dir))).1 with
    | .ok db => [(name, db)]
    | .error _ => []
  | _, _ => []

end Move

namespace Sharing

variable {c : Sharing} {d d' : Disk} {s : Session} {opened : List (String × Database)}

/-- A later disk on which the regions are as they were. Files elsewhere may be made, deleted, moved,
and replaced by others or written in place. -/
structure Elsewhere (c : Sharing) (d d' : Disk) : Prop where
  sane : d'.Sane
  found : d'.find c.dir = .ok (c.place, .directory)
  next : d.nextId ≤ d'.nextId
  regions : ∀ v source, d'.node? (c.regionPlace v source) = d.node? (c.regionPlace v source)
  lockFree : ∀ v source, d'.node? (c.lockPlace v source) ≠ some .directory
  /-- A file with an old identity is a file that was there. -/
  old : ∀ {q f}, d'.node? q = some (.file f) → f.id.index < d.nextId →
    ∃ p g, d.node? p = some (.file g) ∧ g.id = f.id

/-- The file that is opened, if there is one, is one that the sharing is about. -/
def MayOpen (c : Sharing) (h : Host) : Opening → Prop
  | .load source _ _ => c.Carries h.disk source
  | .find running config => c.CarriesFound config running h

/-- The moves that are meant: databases of the common encoding are opened, and the files of regions
are left to the library. -/
def MayMove (c : Sharing) (s : Session) : Move → Prop
  | .open _ opening => c.MayOpen s.host opening
  | .drop _ => True
  | .remove _ _ => True
  | .rewrite d written =>
    c.Elsewhere s.host.disk d ∧ ∀ f ∈ written, ∃ q, d.node? q = some (.file f)

/-- A session with nothing in use and a region directory without regions. -/
structure Start (c : Sharing) (s : Session) : Prop where
  sane : s.host.disk.Sane
  found : s.host.disk.find c.dir = .ok (c.place, .directory)
  lockFree : ∀ v source, s.host.disk.node? (c.lockPlace v source) ≠ some .directory
  empty : ∀ v source, s.host.disk.node? (c.regionPlace v source) = none
  unused : s.databases = []

/-- Sessions that moves lead to, and the databases handed out on the way. -/
inductive Reached (c : Sharing) : Session → List (String × Database) → Prop
  | start {s : Session} : c.Start s → Reached c s []
  | move {s : Session} {opened : List (String × Database)} (m : Move) :
      Reached c s opened → c.MayMove s m → Reached c (m.apply c s) (m.handsOut c s ++ opened)

/-! ## The invariant -/

/-- A sound disk, and databases in use that are live on it and were handed out. -/
structure Orderly (c : Sharing) (s : Session) (opened : List (String × Database)) : Prop where
  sound : c.Sound s.host.disk
  live : ∀ named ∈ s.databases, c.LiveDatabase named.2 s.host.disk
  handed : ∀ named ∈ s.databases, named ∈ opened

theorem Start.orderly (hs : c.Start s) : c.Orderly s [] where
  sound := {
    sane := hs.sane
    found := hs.found
    lockFree := hs.lockFree
    filled := fun _ hnode => by simp [hs.empty] at hnode }
  live named hn := by simp [hs.unused] at hn
  handed named hn := by simp [hs.unused] at hn

/-- A step of the library, which leaves the disk sound and only makes and deletes files. -/
theorem Orderly.kept (hs : c.Orderly s opened) {h : Host} (hk : c.Kept s.host.disk h) :
    c.Orderly { s with host := h } opened where
  sound := hk.1
  live named hn := (hs.live named hn).grows hk.2
  handed := hs.handed

theorem mem_of_lookup {α : Type} {name : String} {a : α} {named : List (String × α)}
    (h : named.lookup name = some a) : (name, a) ∈ named := by
  induction named with
  | nil => cases h
  | cons n named ih =>
    obtain ⟨m, b⟩ := n
    rw [List.lookup_cons] at h
    split at h
    · next hm =>
      cases h
      rw [eq_of_beq hm]
      exact List.mem_cons_self
    · exact List.mem_cons_of_mem _ (ih h)

theorem Orderly.drop (hs : c.Orderly s opened) (name : String) :
    Grows s.host.disk (s.dropDatabase name).2.host.disk
      ∧ c.Orderly (s.dropDatabase name).2 opened := by
  unfold Session.dropDatabase Session.database?
  cases hdb : s.databases.lookup name with
  | none => exact ⟨Grows.refl _, hs⟩
  | some db =>
    have hk := hs.sound.release (hs.live _ (mem_of_lookup hdb)).live
    have hs' := hs.kept hk
    exact ⟨hk.2, hs'.sound, fun named hn => hs'.live named (List.mem_filter.1 hn).1,
      fun named hn => hs'.handed named (List.mem_filter.1 hn).1⟩

/-- Opening a database either way, on a disk that is sound. -/
theorem refines_run {h : Host} (hs : c.Sound h.disk) (o : Opening) (ho : c.MayOpen h o) :
    Refines (c.Kept h.disk) Database.unshared (fun db t => c.LiveDatabase db t.disk)
      (o.run (.shared c.dir) h) (o.run .anonymous h) := by
  cases o with
  | load source running config => exact refines_load hs ho
  | find running config => exact refines_find hs ho

theorem Orderly.open (hs : c.Orderly s opened) (name : String) (o : Opening)
    (ho : c.MayOpen s.host o) :
    c.Orderly ((Move.open name o).apply c s) ((Move.open name o).handsOut c s ++ opened) := by
  obtain ⟨-, hk, hlive⟩ := refines_run hs.sound o ho
  simp only [Move.apply, Move.handsOut, Session.takeDatabase, Session.run]
  rcases hrun : o.run (.shared c.dir) s.host with ⟨e | db, t⟩ <;> rw [hrun] at hk hlive
  · exact hs.kept hk
  · have ht : c.Orderly { s with host := t } opened := hs.kept hk
    obtain ⟨hk', hdrop⟩ := ht.drop name
    refine ⟨hdrop.sound, ?_, ?_⟩
    · rintro named (_ | ⟨_, hn⟩)
      · exact (hlive db rfl).grows hk'
      · exact hdrop.live named hn
    · rintro named (_ | ⟨_, hn⟩)
      · exact List.mem_cons_self
      · exact List.mem_cons_of_mem _ (hdrop.handed named hn)

theorem Orderly.remove (hs : c.Orderly s opened) (dir : Path) (region : String) :
    c.Orderly (s.run (Region.remove dir region)).2 opened :=
  hs.kept (hs.sound.remove dir region)

/-! ## Changes elsewhere -/

theorem Live.elsewhere {r : Region} (hr : c.Live r d) (he : c.Elsewhere d d') : c.Live r d' := by
  obtain ⟨v, source, id, hr⟩ := hr
  refine ⟨v, source, id, hr.backing, Nat.lt_of_lt_of_le hr.given he.next, ?_⟩
  rintro q f hq rfl
  -- an old identity is that of a file from before, and this one is the region's
  obtain ⟨p, g, hp, hid⟩ := he.old hq hr.given
  obtain ⟨rfl, hbytes⟩ := hr.same hp hid
  have hthere := (he.regions v source).trans hp
  obtain rfl := he.sane.alone hq hthere hid.symm
  obtain rfl : f = g := by simpa using hq.symm.trans hthere
  exact ⟨rfl, hbytes⟩

theorem Sound.elsewhere (hs : c.Sound d) (he : c.Elsewhere d d') : c.Sound d' where
  sane := he.sane
  found := he.found
  lockFree := he.lockFree
  filled {v source _} hsource hnode :=
    hs.filled hsource ((he.regions v source).symm.trans hnode)

/-- A live region does not change when a file of the disk is looked at. -/
theorem Live.reread {r : Region} (hr : c.Live r d) {q : Place} {f : File}
    (hq : d.node? q = some (.file f)) : Session.reread f r = r := by
  obtain ⟨v, source, id, hr⟩ := hr
  obtain ⟨name, role, bytes, backing⟩ := r
  obtain rfl : backing = _ := hr.backing
  unfold Session.reread
  simp only [Region.holdBelow, Option.some.injEq]
  split
  · next hid =>
    obtain rfl : f.contents = bytes := (hr.same hq hid.symm).2
    rw [Region.fitted, if_pos rfl]
  · rfl

theorem moved_self {t : Table} {block : ByteArray} (h : block.size = t.block.size)
    (hblock : t.block = block) : Session.moved t block h = t := by
  subst hblock
  cases t <;> rfl

/-- A database whose region does not change keeps the table that lies in it. -/
theorem rereadDatabase_of_reread {f : File} {db : Database}
    (hregion : Session.reread f db.region = db.region) (hblock : db.table.block = db.region.bytes) :
    Session.rereadDatabase f db = db := by
  unfold Session.rereadDatabase
  simp only [hregion]
  split
  · next h =>
    rw [moved_self h hblock]
    rfl
  · rfl

theorem LiveDatabase.reread {db : Database} (hdb : c.LiveDatabase db d) {q : Place} {f : File}
    (hq : d.node? q = some (.file f)) : Session.rereadDatabase f db = db :=
  rereadDatabase_of_reread (hdb.live.reread hq) hdb.block

theorem Orderly.rewrite (hs : c.Orderly s opened) (he : c.Elsewhere s.host.disk d)
    {written : List File} (hw : ∀ f ∈ written, ∃ q, d.node? q = some (.file f)) :
    c.Orderly (s.rewrite d written) opened := by
  have hstart : c.Orderly { s with host := { s.host with disk := d } } opened :=
    ⟨hs.sound.elsewhere he, fun named hn => ⟨(hs.live named hn).live.elsewhere he,
      (hs.live named hn).block⟩, hs.handed⟩
  unfold Session.rewrite
  generalize hs' : { s with host := { s.host with disk := d } } = s' at hstart ⊢
  have hdisk : s'.host.disk = d := by rw [← hs']
  clear hs'
  induction written generalizing s' with
  | nil => exact hstart
  | cons f written ih =>
    obtain ⟨q, hq⟩ := hw f List.mem_cons_self
    -- looking at a file changes none of the databases
    have hsame : (s'.see f).databases = s'.databases := by
      refine (List.map_congr_left fun named hn => ?_).trans (List.map_id _)
      rw [(hstart.live named hn).reread (hdisk ▸ hq)]
      rfl
    rw [List.foldl_cons]
    refine ih (fun g hg => hw g (List.mem_cons_of_mem _ hg)) (s'.see f) ?_ hdisk
    exact ⟨hstart.sound, by rw [hsame]; exact hstart.live, by rw [hsame]; exact hstart.handed⟩

/-- A new file anywhere but under the name of a region. It may take the place of another file. -/
theorem Elsewhere.putNew (hs : c.Sound d) {q : Place} (hdir : d.node? q ≠ some .directory)
    (hq : ∀ v source, c.regionPlace v source ≠ q) (contents : ByteArray) :
    c.Elsewhere d (d.putNew q contents).2 where
  sane := hs.sane.putNew q contents
  found := Disk.find_putNew hs.found hdir contents
  next := Nat.le_succ _
  regions v source := Disk.node?_putNew_of_ne d contents (hq v source)
  lockFree v source hlock := hs.lockFree v source (Disk.directory_of_node?_putNew hlock)
  old {p f} hp hold := ⟨p, f, (Grows.putNew d q contents).same hp hold, rfl⟩

/-- Other contents for a file that is no region. -/
theorem Elsewhere.put (hs : c.Sound d) {q : Place} {f : File} (hf : d.node? q = some (.file f))
    (hq : ∀ v source, c.regionPlace v source ≠ q) (contents : ByteArray) :
    c.Elsewhere d (d.put q (.file { f with block := contents })) where
  sane := hs.sane.put hf rfl
  found := Disk.find_put hs.found (by simp [hf]) _
  next := Nat.le_refl _
  regions v source := Disk.node?_put_of_ne d _ (hq v source)
  lockFree v source hlock := hs.lockFree v source (Disk.directory_of_node?_put hlock)
  old {p g} hp _ := by
    rcases Disk.file_of_node?_put hp with ⟨rfl, rfl⟩ | ⟨-, hp⟩
    · exact ⟨_, f, hf, rfl⟩
    · exact ⟨p, g, hp, rfl⟩

/-- A file written in place, unless its path leads to a region. -/
theorem Elsewhere.overwrite (hs : c.Sound d) (path : Path) (contents : ByteArray)
    (hd : d.overwrite path contents = .ok d')
    (hq : ∀ q node, d.target path = .ok (q, node) → ∀ v source, c.regionPlace v source ≠ q) :
    c.Elsewhere d d' := by
  obtain ⟨q, ht, ⟨hn, rfl⟩ | ⟨f, hf, rfl⟩⟩ := Disk.overwrite_eq_ok hd
  · exact .putNew hs (by simp [hn]) (hq q _ ht) contents
  · exact .put hs hf (hq q _ ht) contents

/-! ## Runs -/

/-- One move keeps the invariant. -/
theorem Orderly.move (hs : c.Orderly s opened) (m : Move) (hm : c.MayMove s m) :
    c.Orderly (m.apply c s) (m.handsOut c s ++ opened) := by
  cases m with
  | «open» name opening => exact hs.open name opening hm
  | drop name => exact (hs.drop name).2
  | remove dir region => exact hs.remove dir region
  | rewrite d written => exact hs.rewrite hm.1 hm.2

/-- Every session that is reached has the invariant. -/
theorem Reached.orderly (hr : c.Reached s opened) : c.Orderly s opened := by
  induction hr with
  | start hs => exact hs.orderly
  | move m _ hm ih => exact ih.move m hm

/-- **Shared regions cannot be told from private ones.** Wherever a session has got to, opening a
database with a shared region fails as it does with a private one, or gives the same database but
for role and backing of its region; and the databases in use are as they were handed out, whichever
file of the disk is looked at again. -/
theorem Reached.invisible (hr : c.Reached s opened) :
    (∀ o : Opening, c.MayOpen s.host o →
        (o.run (.shared c.dir) s.host).1.map Database.unshared = (o.run .anonymous s.host).1)
      ∧ ∀ named ∈ s.databases, named ∈ opened
        ∧ ∀ q f, s.host.disk.node? q = some (.file f) →
          Session.rereadDatabase f named.2 = named.2 := by
  have hs := hr.orderly
  refine ⟨fun o ho => (refines_run hs.sound o ho).same, fun named hn => ⟨hs.handed named hn, ?_⟩⟩
  intro q f hq
  exact (hs.live named hn).reread hq

/-! ## A session with one file -/

/-- A database that could be opened is kept under a name that was free, and handed out. -/
theorem apply_open (name : String) {o : Opening} {db : Database} {g : Host}
    (hrun : o.run (.shared c.dir) s.host = (.ok db, g)) (hfree : s.database? name = none) :
    (Move.open name o).apply c s = { s with host := g, databases := (name, db) :: s.databases }
      ∧ (Move.open name o).handsOut c s = [(name, db)] := by
  have hfree' : ({ s with host := g } : Session).database? name = none := hfree
  simp only [Move.apply, Move.handsOut, Session.takeDatabase, Session.run, hrun,
    Session.dropDatabase, hfree', and_self]

theorem databases_drop {name : String} {db : Database} (hthere : s.database? name = some db) :
    ((Move.drop name).apply c s).databases = Session.forget name s.databases := by
  simp only [Move.apply, Session.dropDatabase, hthere]

theorem databases_remove (dir : Path) (region : String) :
    ((Move.remove dir region).apply c s).databases = s.databases := rfl

/-- What stands behind the tag of a small delta file. -/
def samplePayload : List UInt8 :=
  (⟨⟨1, 0, 0, 0⟩, "m", 8, 1⟩ : Delta.Header).bytes ++ Delta.encodeRecords 8 [⟨5, 7⟩]

/-- The file in one of its two revisions. -/
def sampleFile (revision : Nat) : ByteArray :=
  ⟨(Bytes.write 4 revision ++ samplePayload).toArray⟩

/-- A region directory beside the file. -/
def sampleDisk : Disk :=
  ⟨[(["regions"], .directory), (["a.bin"], .file ⟨⟨0⟩, sampleFile 1⟩)], [], 1⟩

def sampleSharing : Sharing where
  dir := ⟨"regions"⟩
  place := ["regions"]
  encoding := .delta
  sources := (· = samplePayload)
  roomy := by decide
  apart := by
    rintro a b rfl rfl -
    rfl

/-- The disk with the file rewritten in its second revision. -/
def sampleRewritten : Disk :=
  sampleDisk.put ["a.bin"] (.file ⟨⟨0⟩, sampleFile 2⟩)

def sampleOpening : Opening :=
  .load ⟨⟨"a.bin"⟩, .skse, .tagged⟩ ⟨1, 0, 0, 0⟩ ⟨none, none, none, .anonymous, .empty⟩

theorem file_sampleDisk {p : Place} {f : File} (h : sampleDisk.node? p = some (.file f)) :
    p = ["a.bin"] ∧ f = ⟨⟨0⟩, sampleFile 1⟩ := by
  simp only [Disk.node?, sampleDisk, List.lookup_cons] at h
  split at h
  · cases h
  · split at h
    · cases h
    · split at h
      · next hp =>
        cases h
        exact ⟨eq_of_beq hp, rfl⟩
      · cases h

theorem start_sample : sampleSharing.Start (.ofDisk sampleDisk) where
  sane := ⟨fun h => by simp [(file_sampleDisk h).2, Session.ofDisk, Host.ofDisk, sampleDisk],
    fun h h' _ => (file_sampleDisk h).1.trans (file_sampleDisk h').1.symm⟩
  found := by
    have hplain : Plain "regions" := by decide
    exact (Disk.find_name hplain rfl rfl).trans rfl
  lockFree v source := by
    simp [Session.ofDisk, Host.ofDisk, Disk.node?, sampleDisk, sampleSharing, lockPlace,
      List.lookup_cons]
  empty v source := by
    simp [Session.ofDisk, Host.ofDisk, Disk.node?, sampleDisk, sampleSharing, regionPlace,
      List.lookup_cons]
  unused := rfl

theorem target_sample : sampleDisk.target ⟨"a.bin"⟩
    = .ok (["a.bin"], some (.file ⟨⟨0⟩, sampleFile 1⟩)) :=
  Disk.target_name (by decide) rfl rfl

theorem elsewhere_sample : sampleSharing.Elsewhere sampleDisk sampleRewritten := by
  refine .overwrite start_sample.orderly.sound ⟨"a.bin"⟩ (sampleFile 2) ?_ ?_
  · exact Disk.overwrite_of_file target_sample (sampleFile 2)
  · rintro q node hq v source rfl
    rw [target_sample] at hq
    simp [regionPlace, sampleSharing] at hq

/-- The session once the file is rewritten. -/
def sampleStart : Session :=
  (Move.rewrite sampleRewritten [⟨⟨0⟩, sampleFile 2⟩]).apply sampleSharing (.ofDisk sampleDisk)

theorem reached_sampleStart : sampleSharing.Reached sampleStart [] := by
  refine .move _ (.start start_sample) ⟨elsewhere_sample, ?_⟩
  rintro f (_ | ⟨_, ⟨⟩⟩)
  exact ⟨["a.bin"], rfl⟩

theorem carries_sample {d : Disk} (hfile : d.file? ⟨"a.bin"⟩ = some ⟨⟨0⟩, sampleFile 2⟩) :
    sampleSharing.Carries d ⟨⟨"a.bin"⟩, .skse, .tagged⟩ := by
  refine ⟨rfl, ?_, ?_⟩
  · intro f hf raw hraw
    rw [hfile] at hf
    cases hf
    have : raw = 2 := by
      cases hraw
      rfl
    rw [this]
    decide
  · intro f hf
    rw [hfile] at hf
    cases hf
    rfl

theorem accepted_sample : Encoding.delta.Accepted samplePayload ⟨1, 0, 0, 0⟩ [⟨5, 7⟩] where
  entries := by
    have hread : Attempt.on (.ofBytes samplePayload) Delta.Header.read
        = (.ok ⟨⟨1, 0, 0, 0⟩, Text.Utf8.untilNul (Text.Utf8.encode "m"), 8, 1⟩,
            ⟨29, Delta.encodeRecords 8 [⟨5, 7⟩]⟩) := rfl
    have hdecode : (Attempt.on ⟨29, Delta.encodeRecords 8 [⟨5, 7⟩]⟩ (Delta.decodeRecords 8 1)).1
        = .ok [⟨5, 7⟩] := rfl
    simp only [Encoding.entries?, hread, hdecode]
    simp [Except.toOption, sortById]
  bounded := by decide
  accepted := rfl

/-- To open the file is to load what stands behind its tag. -/
theorem run_sampleOpening {h h' : Host} {st : Store}
    (hfile : h.disk.file? ⟨"a.bin"⟩ = some ⟨⟨0⟩, sampleFile 2⟩)
    (hload : Encoding.delta.load ⟨"a.bin"⟩ samplePayload ⟨1, 0, 0, 0⟩ (.shared ⟨"regions"⟩) h
      = (.ok st, h')) :
    ∃ db g, sampleOpening.run (.shared ⟨"regions"⟩) h = (.ok db, g) ∧ db.store = st
      ∧ g.disk = h'.disk := by
  obtain ⟨⟨st, header⟩, hdelta, rfl⟩ := Attempt.map_eq_ok.1 hload
  have hdecode := Database.decode_delta .skse (Region.mapFile_of_file? hfile) rfl rfl hdelta
  obtain ⟨g, hrun, hdisk⟩ :=
    Database.load_of_decode ⟨none, none, none, .shared ⟨"regions"⟩, .empty⟩ hdecode rfl
  exact ⟨_, g, hrun, rfl, hdisk⟩

/-- The session in which the file has been opened once. -/
def sampleOnce : Session :=
  (Move.open "a" sampleOpening).apply sampleSharing sampleStart

/-- And once more, under another name. -/
def sampleTwice : Session :=
  (Move.open "b" sampleOpening).apply sampleSharing sampleOnce

/-- And then the region is deleted, and the database that made it dropped. -/
def sampleSession : Session :=
  (Move.drop "a").apply sampleSharing
    ((Move.remove ⟨"regions"⟩ (regionName ⟨1, 0, 0, 0⟩ samplePayload)).apply sampleSharing
      sampleTwice)

/-- What is handed out in it. -/
def sampleOpened : List (String × Database) :=
  (Move.open "b" sampleOpening).handsOut sampleSharing sampleOnce
    ++ ((Move.open "a" sampleOpening).handsOut sampleSharing sampleStart ++ [])

/-- The disk once there is a region with the entry of the file. -/
def sampleFilled : Disk :=
  ((lockedDisk sampleRewritten ["regions"] (regionName ⟨1, 0, 0, 0⟩ samplePayload)).putNew
    (["regions"] ++ [regionName ⟨1, 0, 0, 0⟩ samplePayload]) (tableBlock [⟨5, 7⟩])).2

theorem file_sampleRewritten : sampleRewritten.file? ⟨"a.bin"⟩ = some ⟨⟨0⟩, sampleFile 2⟩ := by
  rw [Disk.file?, Disk.find_name (by decide) rfl rfl]
  rfl

theorem file_sampleFilled : sampleFilled.file? ⟨"a.bin"⟩ = some ⟨⟨0⟩, sampleFile 2⟩ := by
  have hnode : sampleFilled.node? ["a.bin"] = some (.file ⟨⟨0⟩, sampleFile 2⟩) := by
    rw [sampleFilled, Disk.node?_putNew_of_ne _ _ (by simp), lockedDisk,
      Disk.node?_touched_of_ne (by simp)]
    rfl
  rw [Disk.file?, Disk.find_name (by decide) rfl rfl]
  have hhome : sampleFilled.home ++ ["a.bin"] = ["a.bin"] := rfl
  rw [hhome, hnode]
  rfl

theorem ready_sample : Region.Ready sampleRewritten ⟨"regions"⟩ ["regions"]
    (regionName ⟨1, 0, 0, 0⟩ samplePayload) :=
  reached_sampleStart.orderly.sound.ready _ _

theorem free_sample :
    sampleRewritten.node? (["regions"] ++ [regionName ⟨1, 0, 0, 0⟩ samplePayload]) = none :=
  (elsewhere_sample.regions _ _).trans (start_sample.empty _ _)

/-- The first database makes the region. -/
theorem owner_sample : ∃ db g,
    sampleOpening.run (.shared ⟨"regions"⟩) sampleStart.host = (.ok db, g)
      ∧ db.region.role = .owner ∧ g.disk = sampleFilled := by
  obtain ⟨st, t, h', hload, hdisk, hrole, -⟩ :=
    accepted_sample.load_of_none (h := sampleStart.host) ready_sample free_sample ⟨"a.bin"⟩
  obtain ⟨db, g, hrun, rfl, hg⟩ := run_sampleOpening file_sampleRewritten hload
  exact ⟨db, g, hrun, hrole, hg.trans hdisk⟩

/-- The second one finds it there, and it can be deleted afterwards. -/
theorem attached_sample {h : Host} (hdisk : h.disk = sampleFilled) : ∃ db g,
    sampleOpening.run (.shared ⟨"regions"⟩) h = (.ok db, g)
      ∧ db.region.role = .attached ∧ db.table.entries = [⟨5, 7⟩]
      ∧ (Region.remove ⟨"regions"⟩ (regionName ⟨1, 0, 0, 0⟩ samplePayload) g).1 = .ok true := by
  have hready : Region.Ready h.disk ⟨"regions"⟩ ["regions"]
      (regionName ⟨1, 0, 0, 0⟩ samplePayload) := hdisk ▸ ready_sample.made free_sample _
  have hnode : h.disk.node? (["regions"] ++ [regionName ⟨1, 0, 0, 0⟩ samplePayload]) = some (.file
      ⟨⟨(lockedDisk sampleRewritten ["regions"] (regionName ⟨1, 0, 0, 0⟩ samplePayload)).nextId⟩,
        tableBlock [⟨5, 7⟩]⟩) := by
    rw [hdisk]
    exact Region.node?_made _
  obtain ⟨st, t, h', hload, hlocked, hrole, htable, hentries⟩ :=
    accepted_sample.load_of_block hready hnode [⟨5, 7⟩] rfl rfl ⟨"a.bin"⟩
  obtain ⟨db, g, hrun, rfl, hg⟩ := run_sampleOpening (hdisk ▸ file_sampleFilled) hload
  refine ⟨db, g, hrun, hrole, ?_, ?_⟩
  · rw [Database.table, htable]
    exact hentries
  · have hfound : (lockedDisk h.disk ["regions"] (regionName ⟨1, 0, 0, 0⟩ samplePayload)).find
        ⟨"regions"⟩ = .ok (["regions"], .directory) := Disk.find_touched hready.found
    have hremove := Disk.remove_join hfound hready.fits
    rw [Region.node?_lockedDisk, hnode] at hremove
    rw [Region.remove, hg, hlocked, hremove]

theorem sample_hands_out : ∃ a b, sampleOpened = [("b", b), ("a", a)]
    ∧ sampleSession.databases = [("b", b)] ∧ a.region.role = .owner ∧ b.region.role = .attached
    ∧ b.table.entries = [⟨5, 7⟩]
    ∧ (sampleTwice.run (Region.remove ⟨"regions"⟩
      (regionName ⟨1, 0, 0, 0⟩ samplePayload))).1 = .ok true
    ∧ sampleOnce.host.disk = sampleFilled := by
  obtain ⟨a, g, hrun, howner, hdisk⟩ := owner_sample
  obtain ⟨honce, hhanded⟩ := apply_open (c := sampleSharing) "a" hrun rfl
  obtain ⟨b, g', hrun', hattached, hentries, hremoved⟩ := attached_sample (h := g) hdisk
  have hsecond : sampleOpening.run (.shared sampleSharing.dir) sampleOnce.host = (.ok b, g') := by
    rw [sampleOnce, honce]
    exact hrun'
  have hheld : sampleOnce.databases = [("a", a)] := by
    rw [sampleOnce, honce]
    rfl
  obtain ⟨htwice, hhanded'⟩ := apply_open (c := sampleSharing) "b" hsecond
    (by rw [Session.database?, hheld]; rfl)
  have hboth : sampleTwice.databases = [("b", b), ("a", a)] := by
    rw [sampleTwice, htwice, hheld]
  refine ⟨a, b, ?_, ?_, howner, hattached, hentries, ?_, ?_⟩
  · rw [sampleOpened, hhanded, hhanded']
    rfl
  · have hrest := (databases_remove (c := sampleSharing) ⟨"regions"⟩
      (regionName ⟨1, 0, 0, 0⟩ samplePayload)).trans hboth
    rw [sampleSession, databases_drop (by rw [Session.database?, hrest]; rfl), hrest]
    rfl
  · have hthere : sampleTwice.host = g' := by
      rw [sampleTwice, htwice]
    rw [Session.run, hthere, hremoved]
  · rw [sampleOnce, honce]
    exact hdisk

theorem reached_sample : sampleSharing.Reached sampleSession sampleOpened := by
  obtain ⟨a, b, -, -, -, -, -, -, hdisk⟩ := sample_hands_out
  refine .move (.drop "a") (.move (.remove _ _) (.move (.open "b" _)
    (.move (.open "a" _) reached_sampleStart ?_) ?_) trivial) trivial
  · exact carries_sample file_sampleRewritten
  · exact carries_sample (hdisk ▸ file_sampleFilled)

/-- A database in use that did not fill its region, and whose region was deleted by name before the
database that filled it was dropped. -/
theorem Reached.invisible_sample :
    sampleSharing.Reached sampleSession sampleOpened
      ∧ (∃ a b, sampleOpened = [("b", b), ("a", a)] ∧ sampleSession.databases = [("b", b)]
        ∧ a.region.role = .owner ∧ b.region.role = .attached ∧ b.table.entries = [⟨5, 7⟩]
        ∧ (sampleTwice.run (Region.remove ⟨"regions"⟩
          (regionName ⟨1, 0, 0, 0⟩ samplePayload))).1 = .ok true)
      ∧ (∀ o : Opening, sampleSharing.MayOpen sampleSession.host o →
        (o.run (.shared ⟨"regions"⟩) sampleSession.host).1.map Database.unshared
          = (o.run .anonymous sampleSession.host).1)
      ∧ ∀ named ∈ sampleSession.databases, named ∈ sampleOpened
        ∧ ∀ q f, sampleSession.host.disk.node? q = some (.file f) →
          Session.rereadDatabase f named.2 = named.2 := by
  obtain ⟨a, b, hopened, hlive, howner, hattached, hentries, hremoved, -⟩ := sample_hands_out
  exact ⟨reached_sample, ⟨a, b, hopened, hlive, howner, hattached, hentries, hremoved⟩,
    Reached.invisible reached_sample⟩

end Sharing

end OffsetAtlas
