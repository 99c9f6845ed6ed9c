/-
OffsetAtlas.Proofs.Session.Failing — a call that fails harms no region.

Several processes use a region directory. They call for regions, open databases, let handles go and
remove regions; some of them die and leave their files behind, and others make and delete files as
they like, in the directory too. In every state that this leads to, a call for a region or a load
that fails, for whatever reason, makes no file but locks, deletes no region that anybody holds, and
shows nobody other bytes; and where no region stood before, the next call is an owner again
(`Reached.unharmed`).

Nothing here looks into the reasons of a failure: the stages of a load settle one by one
(`settles_find`, `settles_load`), and a state in which holds are counted right (`Accounted`) is all
that they need.
-/
import OffsetAtlas.Proofs.Database.Settling
import OffsetAtlas.Proofs.Discovery.Distinct
import OffsetAtlas.Proofs.Region.Lifetime
import OffsetAtlas.Proofs.Session.Sharing

namespace OffsetAtlas

open Disk (Grows)
open Region (Filling holdBelow lockedDisk)

/-! ## Events -/

/-- What happens around a region directory. -/
inductive Event
  | use (u : Use)
  | open (o : Opening)
  /-- The processes of all handles but these die. -/
  | die (survivors : List Region)
  /-- Files are made and deleted by somebody else. -/
  | others (d : Disk)

namespace Event

/-- What an event leaves. A handle that dies gives up its hold, but does not delete its file. -/
def apply (dir : Path) : Event → Holdings → Holdings
  | .use u, s => u.apply dir s
  | .open o, s =>
    match o.run (.shared dir) s.host with
    | (.ok db, h) => ⟨h, db.region :: s.live⟩
    | (.error _, h) => ⟨h, s.live⟩
  | .die survivors, s =>
    ⟨{ s.host with holds := survivors.filterMap Region.heldFile? }, survivors⟩
  | .others d, s => ⟨{ s.host with disk := d }, s.live⟩

/-- The events that are meant. Others may make any files, with any content, but they do not write
into files that are there. -/
def May (c : Home) (s : Holdings) : Event → Prop
  | .use u => u.Within c
  | .open _ => True
  | .die survivors => survivors.Sublist s.live
  | .others d => c.Tended d s.host.holds ∧ Grows s.host.disk d

end Event

/-- A call for a region, by name or for a database. -/
inductive Call
  | region (name : String) (size : Nat) (filling : Filling)
  | database (o : Opening)

namespace Call

def run (dir : Path) : Call → HostM Region
  | .region name size filling => Region.createOrAttachBy (.shared dir) name size filling
  | .database o => Database.region <$> o.run (.shared dir)

def Within (c : Home) : Call → Prop
  | .region name _ _ => c.names name
  | .database _ => True

end Call

namespace Home

variable {c : Home} {s : Holdings} {h h' : Host} {live : List Region} {k : Call} {e : Failure}

/-- States that events lead to. At first nobody holds anything, but files may stand in the
directory, under the names of regions too. -/
inductive Reached (c : Home) : Holdings → Prop
  | start {h : Host} : c.Tended h.disk h.holds → h.holds = [] → Reached c ⟨h, []⟩
  | event {s : Holdings} (e : Event) : Reached c s → e.May c s → Reached c (e.apply c.dir s)

/-- What a failure leaves of a state. -/
structure Unharmed (c : Home) (s : Holdings) (h' : Host) : Prop where
  /-- No files are new but locks. -/
  nothingNew : ∀ q f, (∀ n, c.names n → q ≠ c.lockPlace n) →
    h'.disk.node? q = some (.file f) → s.host.disk.node? q = some (.file f)
  /-- The file that a live handle holds stands where it stood, as it was. -/
  stillThere : ∀ r ∈ s.live, ∀ q f, r.heldFile? = some f.id →
    s.host.disk.node? q = some (.file f) → h'.disk.node? q = some (.file f)
  /-- So does every file that has not the place of a region. -/
  elsewhere : ∀ q f, (∀ n, c.names n → q ≠ c.regionPlace n) →
    s.host.disk.node? q = some (.file f) → h'.disk.node? q = some (.file f)
  /-- Whatever file is looked at again, a live handle has the bytes that it had. -/
  sameBytes : ∀ r ∈ s.live, ∀ q f, h'.disk.node? q = some (.file f) → Session.reread f r = r
  sameHolds : h'.holds = s.host.holds
  /-- Where no region stood, the next call fills one. -/
  fillsNext : ∀ n, c.names n → s.host.disk.node? (c.regionPlace n) = none → ∀ size filling,
    ∀ blank : ByteArray, octets blank = List.replicate size 0 → ∃ id,
      (Region.createOrAttachBy (.shared c.dir) n size filling h').1
        = (filling.run blank).1.map fun _ =>
          ⟨n, .owner, (filling.run blank).2.get, .held (holdBelow c.dir n id)⟩

/-! ## The invariant -/

theorem Accounted.settle (ha : c.Accounted h live) {α : Type} {region : α → Region}
    {x : Except Failure α × Host} (hx : c.Settles region h x) :
    (∀ a, x.1 = .ok a → c.Accounted x.2 (region a :: live))
      ∧ ∀ e, x.1 = .error e → c.Accounted x.2 live :=
  ⟨fun a hok => ha.gained (hx.gained a hok), fun e herror => ha.untouched (hx.failed e herror)⟩

theorem Accounted.use (ha : c.Accounted s.host s.live) {u : Use} (hu : u.Within c) :
    c.Accounted (u.apply c.dir s).host (u.apply c.dir s).live := by
  cases u with
  | call name size filling =>
    obtain ⟨hok, herror⟩ := ha.settle (settles_createOrAttachBy ha.tended hu size filling)
    simp only [Use.apply]
    rcases hx : Region.createOrAttachBy (.shared c.dir) name size filling s.host with ⟨e | r, h⟩ <;>
      rw [hx] at hok herror
    · exact herror e rfl
    · exact hok r rfl
  | drop i =>
    simp only [Use.apply]
    cases hi : s.live[i]? with
    | none => exact ha
    | some r => exact ha.release hi
  | remove name => exact ha.remove hu

theorem Accounted.die (ha : c.Accounted h live) {survivors : List Region}
    (hsub : survivors.Sublist live) :
    c.Accounted { h with holds := survivors.filterMap Region.heldFile? } survivors where
  tended := ha.tended.of_subset fun _ hid =>
    ha.counted.mem_iff.2 ((hsub.filterMap Region.heldFile?).subset hid)
  counted := .refl _
  current r hr := ha.current r (hsub.subset hr)
  below r hr := ha.below r (hsub.subset hr)

theorem Accounted.others (ha : c.Accounted h live) {d : Disk} (ht : c.Tended d h.holds)
    (hg : Grows h.disk d) : c.Accounted { h with disk := d } live :=
  ⟨ht, ha.counted, fun r hr => (ha.current r hr).grows hg, ha.below⟩

section

variable (hnames : ∀ v source, c.names (regionName v source))

include hnames

theorem settles_run (ht : c.Tended h.disk h.holds) (o : Opening) :
    c.Settles Database.region h (o.run (.shared c.dir) h) := by
  cases o with
  | load source running config => exact settles_load ht (hnames running)
  | find running config => exact settles_find ht (hnames running)

theorem Accounted.event (ha : c.Accounted s.host s.live) {e : Event} (he : e.May c s) :
    c.Accounted (e.apply c.dir s).host (e.apply c.dir s).live := by
  cases e with
  | use u => exact ha.use he
  | «open» o =>
    obtain ⟨hok, herror⟩ := ha.settle (settles_run hnames ha.tended o)
    simp only [Event.apply]
    rcases hx : o.run (.shared c.dir) s.host with ⟨e | db, h⟩ <;> rw [hx] at hok herror
    · exact herror e rfl
    · exact hok db rfl
  | die survivors => exact ha.die he
  | others d => exact ha.others he.1 he.2

theorem Reached.accounted (hr : c.Reached s) : c.Accounted s.host s.live := by
  induction hr with
  | start ht hnone => exact ⟨ht, by simp [hnone], by simp, by simp⟩
  | event e _ he ih => exact ih.event hnames he

theorem settles_call (ht : c.Tended h.disk h.holds) (hk : k.Within c) :
    c.Settles (fun r => r) h (k.run c.dir h) := by
  cases k with
  | region name size filling => exact settles_createOrAttachBy ht hk size filling
  | database o =>
    rw [Call.run, Attempt.map_apply]
    have hx := settles_run hnames ht o
    rcases hrun : o.run (.shared c.dir) h with ⟨e | db, t⟩ <;> rw [hrun] at hx
    · exact .of_error (hx.failed e rfl)
    · exact .of_ok (hx.gained db rfl)

end

/-! ## Failures -/

theorem Untouched.toUnharmed (ha : c.Accounted s.host s.live) (hu : c.Untouched s.host h') :
    c.Unharmed s h' where
  nothingNew q f hq hf := by
    rcases hu.nodes q with hsame | ⟨-, n, hn, hlock⟩ | ⟨hgone, -⟩
    · exact hsame.symm.trans hf
    · exact absurd hlock (hq n hn)
    · cases hgone.symm.trans hf
  stillThere r hr q f hheld hf := by
    rcases hu.nodes q with hsame | ⟨hnone, -⟩ | ⟨-, -, g, hg, hloose⟩
    · exact hsame.trans hf
    · cases hnone.symm.trans hf
    · -- a file that went was held by nobody
      cases hg.symm.trans hf
      exact absurd (ha.counted.mem_iff.2 (List.mem_filterMap.2 ⟨r, hr, hheld⟩)) hloose
  elsewhere q f hq hf := by
    rcases hu.nodes q with hsame | ⟨hnone, -⟩ | ⟨-, ⟨n, hn, hplace⟩, -⟩
    · exact hsame.trans hf
    · cases hnone.symm.trans hf
    · exact absurd hplace (hq n hn)
  sameBytes r hr q f hf := ((ha.current r hr).grows hu.grows).reread hf
  sameHolds := hu.holds
  fillsNext n hn hnone size filling blank hblank := by
    have hstill : h'.disk.node? (c.regionPlace n) = none := by
      rcases hu.nodes (c.regionPlace n) with hsame | ⟨-, m, hm, hlock⟩ | ⟨hgone, -⟩
      · exact hsame.trans hnone
      · exact absurd hlock (regionPlace_ne_lockPlace hn hm)
      · exact hgone
    exact hu.tended.fills hn hstill size filling hblank

/-- **A call that fails leaves every region as it was**, whatever happened before and whatever the
failure is. -/
theorem Reached.unharmed (hnames : ∀ v source, c.names (regionName v source)) (hr : c.Reached s)
    (hk : k.Within c) (hfailed : k.run c.dir s.host = (.error e, h')) : c.Unharmed s h' := by
  have ha := hr.accounted hnames
  have hu := (settles_call hnames ha.tended hk).failed e (congrArg Prod.fst hfailed)
  rw [hfailed] at hu
  exact hu.toUnharmed ha

/-! ## A region left behind -/

/-- A directory for the regions of databases. -/
def databaseHome : Home where
  dir := ⟨"regions"⟩
  place := ["regions"]
  names n := ∃ v source, n = regionName v source
  fits := by
    rintro n ⟨v, source, rfl⟩
    exact fitsBelow_regionName (by decide) v source
  fitsLock := by
    rintro n ⟨v, source, rfl⟩
    exact fitsBelow_lockName (by decide) v source
  apart := by
    rintro m n ⟨v, a, rfl⟩ ⟨w, b, rfl⟩ he
    exact lockName_ne_regionName _ v a he.symm

/-- A region that somebody died over when it had three bytes. -/
def leftover : File :=
  ⟨⟨0⟩, ByteArray.mk #[1, 2, 3]⟩

def leftoverName : String :=
  regionName ⟨1, 0, 0, 0⟩ []

def leftoverHost : Host :=
  .ofDisk ⟨[(["regions"], .directory), (["regions", leftoverName], .file leftover)], [], 1⟩

theorem node?_leftoverHost {q : Place} {node : Node} (h : leftoverHost.disk.node? q = some node) :
    node = .directory ∧ q.length < 2
      ∨ node = .file leftover ∧ q = ["regions", leftoverName] := by
  simp only [Disk.node?, leftoverHost, Host.ofDisk, List.lookup_cons, List.lookup_nil] at h
  split at h
  · next hq =>
    cases h
    exact .inl ⟨rfl, by simp [hq]⟩
  · split at h
    · next hq =>
      cases h
      exact .inl ⟨rfl, by simp [eq_of_beq hq]⟩
    · split at h
      · next hq =>
        cases h
        exact .inr ⟨rfl, eq_of_beq hq⟩
      · cases h

theorem tended_leftoverHost : databaseHome.Tended leftoverHost.disk leftoverHost.holds where
  sane := by
    have hfile : ∀ {q f}, leftoverHost.disk.node? q = some (.file f) →
        f = leftover ∧ q = ["regions", leftoverName] := fun h => by
      simpa using node?_leftoverHost h
    refine ⟨fun h => ?_, fun h h' _ => ?_⟩
    · rw [(hfile h).1]
      exact Nat.zero_lt_one
    · rw [(hfile h).2, (hfile h').2]
  found := by
    have hplain : Plain "regions" := by decide
    exact (Disk.find_name hplain rfl rfl).trans rfl
  lockFree _ hdir := by
    rcases node?_leftoverHost hdir with ⟨-, hshort⟩ | ⟨hfile, -⟩
    · simp [lockPlace, databaseHome] at hshort
    · cases hfile
  given := by simp [leftoverHost, Host.ofDisk]

/-- A handle on that region. -/
def leftoverHandle : Region :=
  ⟨leftoverName, .attached, leftover.contents, .held (holdBelow ⟨"regions"⟩ leftoverName ⟨0⟩)⟩

/-- The host once somebody has attached to the region. -/
def heldHost : Host where
  disk := lockedDisk leftoverHost.disk ["regions"] leftoverName
  holds := [⟨0⟩]
  log := leftoverHost.log.push (Region.arrivalNotice "Attached to shared region"
    ((⟨"regions"⟩ : Path).join leftoverName).text 3)

theorem attach_leftover : (Event.use (.call leftoverName 3 stopped)).apply ⟨"regions"⟩
    ⟨leftoverHost, []⟩ = ⟨heldHost, [leftoverHandle]⟩ := by
  have hn : databaseHome.names leftoverName := ⟨⟨1, 0, 0, 0⟩, [], rfl⟩
  have hnode : leftoverHost.disk.node? (["regions"] ++ [leftoverName]) = some (.file leftover) := by
    simp [Disk.node?, leftoverHost, Host.ofDisk, List.lookup_cons]
  have hattach : Region.createOrAttachBy (.shared ⟨"regions"⟩) leftoverName 3 stopped leftoverHost
      = (.ok leftoverHandle, heldHost) :=
    Region.createOrAttachBy_of_file (tended_leftoverHost.ready hn) hnode
  rw [Event.apply, Use.apply, hattach]

theorem reached_heldHost : databaseHome.Reached ⟨heldHost, [leftoverHandle]⟩ := by
  rw [← attach_leftover]
  exact .event _ (.start tended_leftoverHost rfl) ⟨⟨1, 0, 0, 0⟩, [], rfl⟩

/-- The name of a region that is not there. -/
def otherName : String :=
  regionName ⟨2, 0, 0, 0⟩ []

theorem node?_otherName : heldHost.disk.node? (["regions"] ++ [otherName]) = none := by
  have hname : otherName ≠ lockName leftoverName :=
    (lockName_ne_regionName leftoverName ⟨2, 0, 0, 0⟩ []).symm
  have hlock : ["regions"] ++ [otherName] ≠ ["regions"] ++ [lockName leftoverName] := by
    simpa using hname
  have hother : otherName ≠ leftoverName := by
    intro he
    rw [otherName, leftoverName, regionName_eq, regionName_eq] at he
    cases (regionNameBy_inj.1 he).1
  rw [heldHost, lockedDisk, Disk.node?_touched_of_ne hlock]
  refine Option.eq_none_iff_forall_ne_some.2 fun node hnode => ?_
  rcases node?_leftoverHost hnode with ⟨-, hshort⟩ | ⟨-, hplace⟩
  · simp at hshort
  · simp [hother] at hplace

theorem fails_stopped (hnames : ∀ v source, databaseHome.names (regionName v source)) :
    (Call.region otherName 16 stopped).run ⟨"regions"⟩ heldHost
      = (.error .notLoaded,
          { heldHost with disk := (lockedDisk heldHost.disk ["regions"] otherName).spent }) :=
  Region.createOrAttachBy_of_none
    ((reached_heldHost.accounted hnames).tended.ready (hnames ⟨2, 0, 0, 0⟩ [])) node?_otherName

/-- A region is filled in part while somebody holds another one. -/
theorem Reached.unharmed_held :
    (∀ v source, databaseHome.names (regionName v source))
      ∧ databaseHome.Reached ⟨heldHost, [leftoverHandle]⟩
      ∧ (Call.region otherName 16 stopped).Within databaseHome
      ∧ ∃ h', (Call.region otherName 16 stopped).run ⟨"regions"⟩ heldHost
          = (.error .notLoaded, h')
        ∧ databaseHome.Unharmed ⟨heldHost, [leftoverHandle]⟩ h' := by
  have hnames : ∀ v source, databaseHome.names (regionName v source) :=
    fun v source => ⟨v, source, rfl⟩
  have hwithin : (Call.region otherName 16 stopped).Within databaseHome := hnames _ _
  exact ⟨hnames, reached_heldHost, hwithin, _, fails_stopped hnames,
    Reached.unharmed hnames reached_heldHost hwithin (fails_stopped hnames)⟩

end Home

end OffsetAtlas
