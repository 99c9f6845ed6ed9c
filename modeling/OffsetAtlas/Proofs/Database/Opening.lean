/-
OffsetAtlas.Proofs.Database.Opening — opening files with shared and with private regions.

On a disk that is sound for a `Sharing`, loading one of its files into a shared region answers what
loading it into a private region answers (`refines_load`, `refines_find`): the same failure, or the
same database but for the role and the backing of its region, which `Database.unshared` forgets. The
disk stays sound, whether the load fails or not, and a database that is handed out is live.

The proofs follow the stages of a load. A stage behind the region looks at nothing but the region's
name and bytes, and it touches the disk only to let go of a region that does not go well.
-/
import OffsetAtlas.Database.Open
import OffsetAtlas.Proofs.Database.Seated
import OffsetAtlas.Proofs.Database.Sharing

namespace OffsetAtlas

open Attempt (Refines)
open Disk (Grows)

/-! ## Regions forgotten -/

/-- The same table in memory of its own. -/
def Store.unshared (st : Store) : Store :=
  { st with region := st.region.unshared }

def Database.Decoded.unshared (x : Database.Decoded) : Database.Decoded :=
  { x with store := x.store.unshared }

/-- The same database in memory of its own. -/
def Database.unshared (db : Database) : Database :=
  { db with store := db.store.unshared }

/-! ## Files of one encoding -/

namespace Encoding

/-- How the files of an encoding are read. -/
def kind : Encoding → SourceKind
  | .delta => .tagged
  | .rows => .csv

/-- Whether a file is decoded and not read in place, as tagged files of the dense layout are. -/
def Decodes : Encoding → List UInt8 → Prop
  | .delta, bytes => ∀ raw, (Attempt.on (.ofBytes bytes) (Reader.u32 "format tag")).1 = .ok raw →
      FormatTag.ofNumber? raw ≠ some .dense
  | .rows, _ => True

/-- The bytes of a file that its region is made from. -/
def source : Encoding → List UInt8 → List UInt8
  | .delta, bytes => bytes.drop 4
  | .rows, bytes => bytes

end Encoding

/-! ## Behind the region -/

namespace Sharing

variable {c : Sharing} {d d' : Disk} {h : Host} {v running : Version} {payload bytes : List UInt8}
  {path : Path} {loader : Loader} {r : Region} {config : Config} {source : Source}

/-- A table that fills a live region. -/
structure LiveStore (c : Sharing) (st : Store) (d : Disk) : Prop where
  live : c.Live st.region d
  block : st.table.block = st.region.bytes

theorem LiveStore.grows {st : Store} (hst : c.LiveStore st d) (hg : Grows d d') :
    c.LiveStore st d' :=
  ⟨hst.live.grows hg, hst.block⟩

theorem Kept.noted (hk : c.Kept d h) (ns : List Notice) : c.Kept d (ns.foldl Host.noted h) := by
  unfold Kept
  rw [Host.disk_foldl_noted]
  exact hk

/-- Remarks change nothing that matters, and they may differ. -/
theorem refines_noteAll {live : Disk → Prop} (hk : c.Kept d h) (hlive : live h.disk)
    (ns ns' : List Notice) (h' : Host) :
    Refines (c.Kept d) (fun u => u) (fun _ t => live t.disk) (Host.noteAll ns h)
      (Host.noteAll ns' h') := by
  refine .ok (fun u => u) (hk.noted ns) ?_
  rw [Host.disk_foldl_noted]
  exact hlive

theorem refines_note {live : Disk → Prop} (hk : c.Kept d h) (hlive : live h.disk) (n n' : Notice)
    (h' : Host) :
    Refines (c.Kept d) (fun u => u) (fun _ t => live t.disk) (Host.note n h) (Host.note n' h') :=
  refines_noteAll hk hlive [n] [n'] h'

/-- What fails lets go of its region, and that keeps the disk sound. -/
theorem refines_releaseOnFailure {α α' : Type} {view : α → α'} {got : α → Host → Prop}
    {x : HostM α} {y : HostM α'} {h' : Host} (hr : c.Live r h.disk)
    (hx : Refines (c.Kept d) view got (x h) (y h')) :
    Refines (c.Kept d) view got (r.releaseOnFailure x h) (r.unshared.releaseOnFailure y h') := by
  obtain ⟨hsame, ⟨hs, hg⟩, hgot⟩ := hx
  unfold Region.releaseOnFailure
  rcases hxh : x h with ⟨e | a, t⟩ <;> rcases hyh : y h' with ⟨e' | a', t'⟩ <;>
    rw [hxh, hyh] at hsame <;> rw [hxh] at hs hg hgot
  · cases hsame
    obtain ⟨hs', hg'⟩ := hs.release hr
    exact .error ⟨hs', hg.trans hg'⟩
  · cases hsame
  · cases hsame
  · cases hsame
    exact .ok view ⟨hs, hg⟩ (hgot a rfl)

theorem refines_fillingOrdered (hk : c.Kept d h) (hr : c.Live r h.disk) (n : Nat) (h' : Host) :
    Refines (c.Kept d) Store.unshared (fun st t => c.LiveStore st t.disk)
      (Store.fillingOrdered r n h) (Store.fillingOrdered r.unshared n h') := by
  refine refines_releaseOnFailure hr ?_
  refine Refines.bind (Q := fun t h => t.block = r.bytes ∧ c.Live r h.disk)
    (.ofExcept hk ?_) ?_
  · exact fun t ht => ⟨Table.block_of_ofOrdered ht, hr⟩
  · rintro t s s' hk' ⟨hblock, hr'⟩
    exact .ok Store.unshared hk' ⟨hr', hblock⟩

/-! ## Decoding -/

/-- A store in memory of its own, and what came with it. -/
def unsharedFst {α : Type} (p : Store × α) : Store × α :=
  (p.1.unshared, p.2)

/-- A table that fills its region, with something that came with it. -/
theorem refines_pairing {α : Type} (hk : c.Kept d h) (hr : c.Live r h.disk) (n : Nat) (a : α)
    (h' : Host) :
    Refines (c.Kept d) unsharedFst (fun p t => c.LiveStore p.1 t.disk)
      ((do let st ← Store.fillingOrdered r n; return (st, a) : HostM (Store × α)) h)
      ((do let st ← Store.fillingOrdered r.unshared n; return (st, a) : HostM (Store × α)) h') := by
  refine (refines_fillingOrdered hk hr n h').bind ?_
  intro st s t hk hst
  exact .ok unsharedFst hk hst

theorem refines_loadDelta (running : Version) (he : c.encoding = .delta) (hs : c.Sound h.disk)
    (hsource : c.sources payload) (h' : Host) :
    Refines (c.Kept h.disk) unsharedFst (fun p t => c.LiveStore p.1 t.disk)
      (Store.loadDelta payload running (.shared c.dir) h)
      (Store.loadDelta payload running .anonymous h') := by
  cases hhead : (Attempt.on (.ofBytes payload) Delta.Header.read).1.bind fun header =>
      Store.checkDelta running header with
  | error e =>
    rw [Store.loadDelta_refused hhead, Store.loadDelta_refused hhead]
    exact .error ⟨hs, Grows.refl _⟩
  | ok u =>
    obtain ⟨header, hread, hcheck⟩ := Store.accepted_of_ok hhead
    rw [Store.loadDelta_of_header hread hcheck, Store.loadDelta_of_header hread hcheck]
    refine (refines_createOrAttach hs hsource (he ▸ Store.fills_delta hread) h').bind ?_
    intro r s t hk hr
    refine (refines_note hk hr _ _ t).bind ?_
    intro _ s t hk hr
    exact refines_pairing hk hr header.addressCount header t

theorem refines_loadRows (he : c.encoding = .rows) (hs : c.Sound h.disk)
    (hsource : c.sources bytes) (h' : Host) :
    Refines (c.Kept h.disk) unsharedFst (fun p t => c.LiveStore p.1 t.disk)
      (Store.loadRows bytes path running (.shared c.dir) h)
      (Store.loadRows bytes path running .anonymous h') := by
  have hk : c.Kept h.disk h := ⟨hs, Grows.refl _⟩
  by_cases hempty : (Csv.parse bytes).entries = []
  · rw [Store.loadRows_of_empty hempty, Store.loadRows_of_empty hempty]
    exact .error (hk.noted _)
  · rw [Store.loadRows_of_entries hempty, Store.loadRows_of_entries hempty]
    have hdisk := Store.disk_parsedHost (Csv.parse bytes) running h
    rw [← hdisk] at hs ⊢
    refine (refines_createOrAttach hs hsource (he ▸ Store.fills_rows bytes) _).bind ?_
    intro r s t hk hr
    refine (refines_noteAll hk hr _ _ t).bind ?_
    intro _ s t hk hr
    exact refines_pairing hk hr _ _ t

/-! ## Whole files -/

/-- A file to load that, if it is there, has the common encoding and one of the common sources. -/
structure Carries (c : Sharing) (d : Disk) (source : Source) : Prop where
  kind : source.kind = c.encoding.kind
  decodes : ∀ f, d.file? source.path = some f → c.encoding.Decodes (octets f.contents)
  among : ∀ f, d.file? source.path = some f →
    c.sources (c.encoding.source (octets f.contents))

theorem file_of_mapFile (hm : (Region.mapFile path h).1 = .ok r) :
    ∃ f, h.disk.file? path = some f ∧ f.contents = r.bytes := by
  unfold Region.mapFile Host.ask at hm
  simp only at hm
  split at hm
  · cases hm
  · cases hm
  · next q f hfind =>
    cases hm
    exact ⟨f, by simp [Disk.file?, hfind], rfl⟩

theorem file_of_read {contents : ByteArray} (hread : d.read path = .ok contents) :
    ∃ f, d.file? path = some f ∧ f.contents = contents := by
  unfold Disk.read at hread
  split at hread
  · cases hread
  · cases hread
  · next q f hfind =>
    cases hread
    exact ⟨f, by simp [Disk.file?, hfind], rfl⟩

/-- A decoded file that fills a live region. -/
def LiveDecoded (c : Sharing) (x : Database.Decoded) (t : Host) : Prop :=
  c.LiveStore x.store t.disk

theorem refines_decodeTagged (he : c.encoding = .delta) (hs : c.Sound h.disk)
    (hc : c.Carries h.disk ⟨path, loader, .tagged⟩) :
    Refines (c.Kept h.disk) Database.Decoded.unshared c.LiveDecoded
      (Database.decodeTagged path running (.shared c.dir) h)
      (Database.decodeTagged path running .anonymous h) := by
  have hk : c.Kept h.disk h := ⟨hs, Grows.refl _⟩
  unfold Database.decodeTagged
  rw [Attempt.bind_apply, Attempt.bind_apply]
  have hstate : (Region.mapFile path h).2 = h := rfl
  rcases hm : Region.mapFile path h with ⟨e | file, t⟩ <;> rw [hm] at hstate <;>
    obtain rfl : t = h := hstate
  · exact .error hk
  · obtain ⟨f, hf, hbytes⟩ := file_of_mapFile (congrArg Prod.fst hm)
    have hdecodes := hc.decodes f hf
    have hsource := hc.among f hf
    rw [he, hbytes] at hdecodes hsource
    simp only
    rw [Attempt.bind_apply, Attempt.bind_apply, Attempt.ofExcept_apply]
    cases htag : (Attempt.on (.ofBytes (octets file.bytes)) (Reader.u32 "format tag")).1 with
    | error e => exact .error hk
    | ok raw =>
      have hdense := hdecodes raw htag
      have hload := refines_loadDelta running he hs hsource t
      simp only
      cases hnumber : FormatTag.ofNumber? raw with
      | none => exact .error hk
      | some tag =>
        cases tag with
        | dense => exact absurd hnumber hdense
        | csv => exact .error hk
        | packed => exact .error hk
        | firstDelta =>
          refine hload.bind ?_
          rintro ⟨st, header⟩ s t hk hst
          exact .ok Database.Decoded.unshared hk hst
        | secondDelta =>
          refine hload.bind ?_
          rintro ⟨st, header⟩ s t hk hst
          exact .ok Database.Decoded.unshared hk hst

theorem refines_loadCsv (he : c.encoding = .rows) (hs : c.Sound h.disk)
    (hc : c.Carries h.disk ⟨path, loader, .csv⟩) :
    Refines (c.Kept h.disk) unsharedFst (fun p t => c.LiveStore p.1 t.disk)
      (Store.loadCsv path running (.shared c.dir) h)
      (Store.loadCsv path running .anonymous h) := by
  have hk : c.Kept h.disk h := ⟨hs, Grows.refl _⟩
  unfold Store.loadCsv
  rw [Attempt.bind_apply, Attempt.bind_apply]
  simp only [Host.ask]
  cases hread : h.disk.read path with
  | error e => exact .error hk
  | ok contents =>
    obtain ⟨f, hf, hbytes⟩ := file_of_read hread
    have hsource := hc.among f hf
    rw [he, hbytes] at hsource
    exact refines_loadRows he hs hsource h

theorem refines_decode (hs : c.Sound h.disk) (hc : c.Carries h.disk source) :
    Refines (c.Kept h.disk) Database.Decoded.unshared c.LiveDecoded
      (Database.decode source running (.shared c.dir) h)
      (Database.decode source running .anonymous h) := by
  obtain ⟨path, loader, kind⟩ := source
  obtain rfl : kind = c.encoding.kind := hc.kind
  cases he : c.encoding with
  | delta =>
    rw [he] at hc
    exact refines_decodeTagged he hs hc
  | rows =>
    rw [he] at hc
    refine (refines_loadCsv he hs hc).bind ?_
    rintro ⟨st, report⟩ s t hk hst
    exact .ok Database.Decoded.unshared hk hst

/-! ## Databases -/

/-- A database whose table is a live region. -/
def LiveDatabase (c : Sharing) (db : Database) (d : Disk) : Prop :=
  c.LiveStore db.store d

/-- The denylist is asked about the bytes alone. -/
theorem refines_validate {live : Disk → Prop} (hk : c.Kept d h) (hlive : live h.disk)
    (denylist : Denylist) (source : Source) (running : Version) (table : ByteArray) (h' : Host) :
    Refines (c.Kept d) (fun u => u) (fun _ t => live t.disk)
      (Database.validate denylist source running table h)
      (Database.validate denylist source running table h') := by
  unfold Database.validate
  refine (refines_noteAll hk hlive _ _ h').bind ?_
  intro _ s t hk hlive
  exact .ofExcept hk fun _ _ => hlive

/-- **A load into a shared region answers what a load into a private one answers**, and leaves a
sound disk and a live database behind. -/
theorem refines_load (hs : c.Sound h.disk) (hc : c.Carries h.disk source) :
    Refines (c.Kept h.disk) Database.unshared (fun db t => c.LiveDatabase db t.disk)
      (Database.load source running { config with region := .shared c.dir } h)
      (Database.load source running { config with region := .anonymous } h) := by
  unfold Database.load
  refine (refines_decode hs hc).bind ?_
  intro decoded s t hk hst
  refine refines_releaseOnFailure hst.live ?_
  refine (refines_validate hk hst config.denylist source running _ t).bind ?_
  intro _ s t hk hst
  refine (refines_note hk hst _ _ t).bind ?_
  intro _ s t hk hst
  exact .ok Database.unshared hk hst

/-! ## Databases to be found -/

/-- The search of `Database.find` without the load. -/
def seek (config : Config) (running : Version) : HostM Source := do
  let loader ← Attempt.ofExcept config.resolveLoader
  let dir := config.resolveSearchDir
  Host.note (.debug ("Searching " ++ dir.text ++ " for " ++ loader.name ++ " Address Library "
    ++ running.display))
  Source.locate loader dir running

theorem find_eq_seek (config : Config) (running : Version) :
    Database.find config running
      = seek config running >>= fun source => Database.load source running config := by
  simp only [Database.find, seek, bind_assoc]

theorem quiet_locateAmong (loader : Loader) (dir : Path) (version : Version)
    (cs : List Source.Candidate) (tried : List Path) :
    Attempt.Quiet (Source.locateAmong loader dir version cs tried) := by
  induction cs generalizing tried with
  | nil => exact Attempt.quiet_fail _
  | cons c cs ih =>
    rw [Source.locateAmong]
    refine (Attempt.quiet_note _).bind fun _ => (Attempt.quiet_ask _).bind fun found => ?_
    split
    · exact (Attempt.quiet_note _).bind fun _ => Attempt.quiet_pure _
    · exact ih _

theorem quiet_seek (config : Config) (running : Version) : Attempt.Quiet (seek config running) :=
  (Attempt.quiet_ofExcept _).bind fun loader => (Attempt.quiet_note _).bind fun _ =>
    quiet_locateAmong loader _ running _ _

theorem disk_seek (config : Config) (running : Version) (h : Host) :
    (seek config running h).2.disk = h.disk :=
  (quiet_seek config running h).disk

/-- Whatever the search finds is a file that the sharing is about. -/
def CarriesFound (c : Sharing) (config : Config) (running : Version) (h : Host) : Prop :=
  ∀ source, (seek config running h).1 = .ok source → c.Carries h.disk source

/-- Opening the database of a version is loading the file that is found. -/
theorem refines_find (hs : c.Sound h.disk) (hc : c.CarriesFound config running h) :
    Refines (c.Kept h.disk) Database.unshared (fun db t => c.LiveDatabase db t.disk)
      (Database.find { config with region := .shared c.dir } running h)
      (Database.find { config with region := .anonymous } running h) := by
  rw [find_eq_seek, find_eq_seek, Attempt.bind_apply, Attempt.bind_apply]
  have hshared : seek { config with region := .shared c.dir } running h
      = seek config running h := rfl
  have hprivate : seek { config with region := .anonymous } running h
      = seek config running h := rfl
  have hdisk := disk_seek config running h
  rw [hshared, hprivate]
  rcases hseek : seek config running h with ⟨e | source, t⟩ <;> rw [hseek] at hdisk
  · refine .error ?_
    unfold Kept
    rw [hdisk]
    exact ⟨hs, Grows.refl _⟩
  · have hcarries := hc source (congrArg Prod.fst hseek)
    rw [← hdisk] at hs hcarries ⊢
    exact refines_load hs hcarries

end Sharing

end OffsetAtlas
