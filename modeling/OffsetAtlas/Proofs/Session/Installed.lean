/-
OffsetAtlas.Proofs.Session.Installed — the database of the process, from its first opening on.

There is one database for the whole process, and two ways to make it: a database is installed, or
`getOrOpen` opens one. Main statement: of all calls in a run, the first one that succeeds settles
which database it is (`Process.run_once`). Before it nothing is installed, and every opening starts
afresh on the files as they are; after it every call is answered with that database, whatever it
asks for, and a module of another version gets no address.

The installed database is never replaced, but it is not a copy: if its region is a file, it shows
the bytes of that file. A file that is replaced by another one, moved or deleted changes nothing. A
file that is written in place while it is mapped changes the answers
(`Process.overwritten_answers`), so that they stay the same is proved for runs in which this does
not happen.

One call changes what is installed in one of two ways, depending on whether there was something
(`Call.apply_of_none`, `Call.apply_of_some`); the statements on runs are inductions over these.
-/
import OffsetAtlas.Proofs.Database.Seated
import OffsetAtlas.Proofs.Packing.RoundTrip
import OffsetAtlas.Proofs.Region.Tending
import OffsetAtlas.Proofs.Session.Sharing

namespace OffsetAtlas

/-! ## Files written in place -/

namespace Database

variable {db : Database} {written : List File} {f : File}

/-- The database once these files have been written in place, one after another. -/
def seeing (db : Database) (written : List File) : Database :=
  written.foldl (fun db f => Session.rereadDatabase f db) db

theorem seeing_append (db : Database) (ws ws' : List File) :
    db.seeing (ws ++ ws') = (db.seeing ws).seeing ws' :=
  List.foldl_append

theorem version_reread (f : File) (db : Database) :
    (Session.rereadDatabase f db).version = db.version := by
  unfold Session.rereadDatabase
  simp only
  split <;> rfl

/-- What is in a file does not make it another version's database. -/
theorem version_seeing (db : Database) (written : List File) :
    (db.seeing written).version = db.version := by
  induction written generalizing db with
  | nil => rfl
  | cons f written ih => exact (ih (Session.rereadDatabase f db)).trans (version_reread f db)

theorem reread_of_ne (hf : db.region.backingFile? ≠ some f.id) :
    Session.reread f db.region = db.region := by
  unfold Session.reread
  exact if_neg hf

/-- Files that a database does not show can be written at will. -/
theorem seeing_of_ne (hs : db.store.Seated)
    (hw : ∀ f ∈ written, db.region.backingFile? ≠ some f.id) :
    db.seeing written = db := by
  induction written with
  | nil => rfl
  | cons f written ih =>
    have hhead : Session.rereadDatabase f db = db :=
      Sharing.rereadDatabase_of_reread (reread_of_ne (hw f List.mem_cons_self)) hs
    rw [seeing, List.foldl_cons, hhead]
    exact ih fun g hg => hw g (List.mem_cons_of_mem f hg)

end Database

/-! ## Calls -/

/-- What the calls on the installed database depend on. -/
structure Process where
  host : Host
  installed : Installed

namespace Process

/-- What can happen in a process, as far as the installed database is concerned. -/
inductive Call where
  /-- A database is offered, wherever it comes from. -/
  | install (db : Database) (seated : db.store.Seated)
  | getOrOpen (config : Config) (running : Version)
  | get
  | context (m : GameModule)
  /-- The files change in any way, and these were written in place. -/
  | change (host : Host) (written : List File)

namespace Call

/-- The process after a call. -/
def apply : Call → Process → Process
  | install db _, p => ⟨p.host, (p.installed.install db).2⟩
  | getOrOpen config running, p =>
    let r := p.installed.getOrOpen config running p.host
    ⟨r.2, r.1.2⟩
  | get, p => p
  | context _, p => p
  | change host written, p => ⟨host, p.installed.map fun db => db.seeing written⟩

/-- The database with which an installation or an opening succeeds. -/
def success? : Call → Process → Option Database
  | install db _, p => (p.installed.install db).1.toOption
  | getOrOpen config running, p => (p.installed.getOrOpen config running p.host).1.1.toOption
  | _, _ => none

/-- The files that are written in place. -/
def written : Call → List File
  | change _ written => written
  | _ => []

variable {p : Process} {db : Database}

/-- Where nothing is installed, a call leaves what it succeeds with. -/
theorem apply_of_none (hp : p.installed = none) (c : Call) :
    (c.apply p).installed = c.success? p := by
  cases c with
  | install db seated =>
    rw [apply, success?, hp]
    rfl
  | getOrOpen config running =>
    rw [apply, success?, hp]
    simp only [Installed.getOrOpen]
    rcases Database.find config running p.host with ⟨e | db, g⟩ <;> rfl
  | get => exact hp
  | context m => exact hp
  | change host written =>
    rw [apply, hp]
    rfl

/-- What is installed stays; at most it is looked at again. -/
theorem apply_of_some (hp : p.installed = some db) (c : Call) :
    (c.apply p).installed = some (db.seeing c.written) := by
  cases c with
  | install other seated =>
    rw [apply, hp]
    rfl
  | getOrOpen config running =>
    rw [apply, hp]
    rfl
  | get => exact hp
  | context m => exact hp
  | change host written =>
    rw [apply, hp]
    rfl

theorem seated_of_success (hp : p.installed = none) {c : Call} (hc : c.success? p = some db) :
    db.store.Seated := by
  cases c with
  | install other seated =>
    rw [success?, hp] at hc
    cases hc
    exact seated
  | getOrOpen config running =>
    rw [success?, hp] at hc
    simp only [Installed.getOrOpen] at hc
    rcases hfind : Database.find config running p.host with ⟨e | found, g⟩
    · rw [hfind] at hc
      cases hc
    · rw [hfind] at hc
      cases hc
      exact Database.seated_of_find hfind
  | get => cases hc
  | context m => cases hc
  | change host written => cases hc

end Call

/-! ## States -/

/-- A process in which nothing is installed. -/
structure Vacant (p : Process) : Prop where
  get : p.installed.get = .error .notLoaded
  context : ∀ m, AddressContext.ofInstalled p.installed m = .error .notLoaded
  /-- An opening that fails leaves nothing installed. -/
  failing : ∀ config running e g, Database.find config running p.host = (.error e, g) →
    p.installed.getOrOpen config running p.host = ((.error e, none), g)
  /-- An opening opens the database as it is found now. -/
  opening : ∀ config running db g, Database.find config running p.host = (.ok db, g) →
    p.installed.getOrOpen config running p.host = ((.ok db, some db), g)
  installing : ∀ db, p.installed.install db = (.ok db, some db)

/-- A process with its database. -/
structure Settled (p : Process) (db : Database) : Prop where
  get : p.installed.get = .ok db
  context : ∀ m, AddressContext.ofInstalled p.installed m = .ok (.of db m)
  /-- Whatever is asked for is not looked for, so the files do not matter. -/
  opening : ∀ config running h,
    p.installed.getOrOpen config running h = ((.ok db, some db), h)
  /-- A database that is offered is given back. -/
  installing : ∀ other, p.installed.install other = (.error other, some db)
  /-- A module of another version gets no address. -/
  guarded : ∀ (id : Identifier) (m : GameModule) (runtime : RuntimeSource) (c : AddressContext),
    AddressContext.ofInstalled p.installed m = .ok c → m.version ≠ db.version →
    id.address (c.withRuntime runtime) = .error (.versionMismatch m.version db.version)

variable {p : Process} {db : Database}

theorem vacant_of_none (hp : p.installed = none) : p.Vacant := by
  obtain ⟨host, installed⟩ := p
  obtain rfl : installed = none := hp
  refine ⟨rfl, fun m => rfl, ?failing, ?opening, fun db => rfl⟩
  case failing =>
    intro config running e g hfind
    simp only [Installed.getOrOpen, hfind]
  case opening =>
    intro config running db g hfind
    simp only [Installed.getOrOpen, hfind]

theorem settled_of_some (hp : p.installed = some db) : p.Settled db := by
  obtain ⟨host, installed⟩ := p
  obtain rfl : installed = some db := hp
  refine ⟨rfl, fun m => rfl, fun config running h => rfl, fun other => rfl, ?guarded⟩
  intro id m runtime c hc hne
  obtain rfl : AddressContext.of db m = c := Except.ok.inj hc
  exact if_neg hne

/-! ## Runs -/

/-- The process after some calls. -/
def run (p : Process) (calls : List Call) : Process :=
  calls.foldl (fun p c => c.apply p) p

/-- The database of the first call that succeeds, and the calls after it. -/
def first : Process → List Call → Option (Database × List Call)
  | _, [] => none
  | p, c :: calls =>
    match c.success? p with
    | some db => some (db, calls)
    | none => first (c.apply p) calls

theorem run_of_some (hp : p.installed = some db) (calls : List Call) :
    (p.run calls).installed = some (db.seeing (calls.flatMap Call.written)) := by
  induction calls generalizing p db with
  | nil => exact hp
  | cons c calls ih =>
    have htail := ih (Call.apply_of_some hp c)
    rw [List.flatMap_cons, Database.seeing_append]
    exact htail

theorem run_of_first_eq_none (hp : p.installed = none) {calls : List Call}
    (hf : first p calls = none) : (p.run calls).installed = none := by
  induction calls generalizing p with
  | nil => exact hp
  | cons c calls ih =>
    rw [first] at hf
    split at hf
    · cases hf
    · next hc => exact ih ((Call.apply_of_none hp c).trans hc) hf

/-- From the first success on the run is one with that database installed. -/
theorem run_of_first_eq_some (hp : p.installed = none) {calls after : List Call}
    (hf : first p calls = some (db, after)) :
    db.store.Seated
      ∧ (p.run calls).installed = some (db.seeing (after.flatMap Call.written)) := by
  induction calls generalizing p with
  | nil => cases hf
  | cons c calls ih =>
    rw [first] at hf
    split at hf
    · next found hc =>
      cases hf
      exact ⟨Call.seated_of_success hp hc,
        run_of_some ((Call.apply_of_none hp c).trans hc) after⟩
    · next hc => exact ih ((Call.apply_of_none hp c).trans hc) hf

/-- **The first success settles the database of the process.** Whatever is called in whatever order
and however the files change meanwhile, nothing is installed until a call succeeds, and from then on
the database of that call stays installed. It stays the very same, and with it every answer, unless
a file that it shows is written in place; and it stays one for its version in any case. -/
theorem run_once (h : Host) (calls : List Call) :
    (first ⟨h, none⟩ calls = none → (run ⟨h, none⟩ calls).Vacant)
      ∧ ∀ db after, first ⟨h, none⟩ calls = some (db, after) →
        (run ⟨h, none⟩ calls).Settled (db.seeing (after.flatMap Call.written))
          ∧ (db.seeing (after.flatMap Call.written)).version = db.version
          ∧ ((∀ c ∈ after, ∀ f ∈ c.written, db.region.backingFile? ≠ some f.id) →
            db.seeing (after.flatMap Call.written) = db) := by
  refine ⟨?vacant, ?settled⟩
  case vacant =>
    intro hf
    exact vacant_of_none (run_of_first_eq_none rfl hf)
  case settled =>
    intro db after hf
    obtain ⟨hseated, hinstalled⟩ := run_of_first_eq_some rfl hf
    refine ⟨settled_of_some hinstalled, Database.version_seeing db _, ?_⟩
    intro hw
    refine Database.seeing_of_ne hseated ?_
    intro f hmem
    obtain ⟨c, hc, hf⟩ := List.mem_flatMap.1 hmem
    exact hw c hc f hf

/-! ## A file that is written while it is mapped -/

/-- A packed file with one entry. -/
def sampleFile (offset : UInt64) : File :=
  ⟨⟨0⟩, ByteArray.mk (Packed.encode [⟨1, offset⟩]).toArray⟩

def sampleTable (offset : UInt64) : OrderedTable :=
  ⟨⟨(sampleFile offset).contents, Packed.headerSize, 1, Nat.le_refl 24⟩⟩

/-- The database that such a file makes when it is read in place. -/
def sampleDatabase (offset : UInt64) : Database :=
  ⟨⟨"a.bin"⟩, .f4se, ⟨1, 10, 163, 0⟩, .packed, none,
    ⟨.ofFile ⟨"a.bin"⟩ (sampleFile offset), .ordered (sampleTable offset)⟩, none, none⟩

theorem offset_sampleDatabase (offset : UInt64) :
    (sampleDatabase offset).offset 1 = .ok offset := by
  have hbytes : octets (sampleTable offset).span.block
      = Bytes.write Packed.headerSize 1 ++ tableBytes [⟨1, offset⟩] := rfl
  have hentries : (sampleTable offset).entries = [⟨1, offset⟩] :=
    OrderedTable.entries_eq_of_octets hbytes rfl rfl
  have hfind : (sampleDatabase offset).table.find 1 = some offset :=
    OrderedTable.find_singleton hentries 1
  have hlength : (sampleDatabase offset).table.length ≠ 0 := Nat.one_ne_zero
  rw [Database.offset, if_neg hlength, hfind]

theorem load_sampleDatabase :
    (Database.load ⟨⟨"a.bin"⟩, .f4se, .packed⟩ ⟨1, 10, 163, 0⟩
        ⟨none, none, none, .anonymous, .empty⟩ (.ofDisk (Packing.packedDisk [⟨1, 16⟩]))).1
      = .ok (sampleDatabase 16) := by
  have hmap : Region.mapFile ⟨"a.bin"⟩ (.ofDisk (Packing.packedDisk [⟨1, 16⟩]))
      = (.ok (.ofFile ⟨"a.bin"⟩ (sampleFile 16)), .ofDisk (Packing.packedDisk [⟨1, 16⟩])) :=
    Region.mapFile_of_file? (Packing.file_packedDisk [⟨1, 16⟩])
  have htable : Packed.table (Region.ofFile ⟨"a.bin"⟩ (sampleFile 16)).bytes
      = .ok (.ordered (sampleTable 16)) := rfl
  have hstore : Store.loadPacked ⟨"a.bin"⟩ (.ofDisk (Packing.packedDisk [⟨1, 16⟩]))
      = (.ok (sampleDatabase 16).store, .ofDisk (Packing.packedDisk [⟨1, 16⟩])) := by
    rw [Store.loadPacked, Attempt.bind_of_ok hmap, Attempt.ofExcept_bind htable]
    rfl
  rw [Database.load, Attempt.bind_of_ok (Attempt.bind_of_ok hstore _)]
  rfl

theorem overwrite_packedDisk (entries entries' : List Entry) :
    (Packing.packedDisk entries).overwrite ⟨"a.bin"⟩ ⟨(Packed.encode entries').toArray⟩
      = .ok (Packing.packedDisk entries') :=
  (Disk.overwrite_of_file (Disk.target_name (by decide) rfl rfl) _).trans rfl

/-- The answers of the installed database change when the file that it maps is written in place. -/
theorem overwritten_answers :
    (Database.load ⟨⟨"a.bin"⟩, .f4se, .packed⟩ ⟨1, 10, 163, 0⟩
        ⟨none, none, none, .anonymous, .empty⟩ (.ofDisk (Packing.packedDisk [⟨1, 16⟩]))).1
      = .ok (sampleDatabase 16)
    ∧ (Packing.packedDisk [⟨1, 16⟩]).overwrite ⟨"a.bin"⟩ (sampleFile 48).contents
      = .ok (Packing.packedDisk [⟨1, 48⟩])
    ∧ ((run ⟨.ofDisk (Packing.packedDisk [⟨1, 16⟩]), none⟩
        [.install (sampleDatabase 16) rfl]).installed.get.bind fun db => db.offset 1) = .ok 16
    ∧ ((run ⟨.ofDisk (Packing.packedDisk [⟨1, 16⟩]), none⟩
        [.install (sampleDatabase 16) rfl,
          .change (.ofDisk (Packing.packedDisk [⟨1, 48⟩])) [sampleFile 48]]).installed.get.bind
        fun db => db.offset 1) = .ok 48 :=
  ⟨load_sampleDatabase, overwrite_packedDisk [⟨1, 16⟩] [⟨1, 48⟩], offset_sampleDatabase 16,
    offset_sampleDatabase 48⟩

/-- An opening fails, a database is installed, another opening would fail, a file is written that
nobody maps, and another database is offered. -/
def sampleCalls : List Call :=
  [.getOrOpen ⟨none, none, none, .anonymous, .empty⟩ ⟨1, 10, 163, 0⟩,
    .install (sampleDatabase 16) rfl,
    .getOrOpen ⟨none, none, none, .anonymous, .empty⟩ ⟨1, 10, 980, 0⟩,
    .change (.ofDisk (Packing.packedDisk [])) [⟨⟨1⟩, ByteArray.empty⟩],
    .install (sampleDatabase 48) rfl]

theorem run_once_sample :
    (run ⟨.ofDisk (Packing.packedDisk [⟨1, 16⟩]), none⟩ (sampleCalls.take 1)).Vacant
      ∧ (run ⟨.ofDisk (Packing.packedDisk [⟨1, 16⟩]), none⟩ sampleCalls).Settled
        (sampleDatabase 16) := by
  refine ⟨(run_once _ _).1 rfl, ?_⟩
  obtain ⟨hsettled, -, hsame⟩ :=
    (run_once (.ofDisk (Packing.packedDisk [⟨1, 16⟩])) sampleCalls).2 (sampleDatabase 16) _ rfl
  have hunseen : ∀ c ∈ sampleCalls.drop 2, ∀ f ∈ c.written,
      (sampleDatabase 16).region.backingFile? ≠ some f.id := by
    intro c hc f hf
    simp only [sampleCalls, List.drop_succ_cons, List.drop_zero, List.mem_cons, List.not_mem_nil,
      or_false] at hc
    rcases hc with rfl | rfl | rfl
    · cases hf
    · obtain rfl : f = ⟨⟨1⟩, ByteArray.empty⟩ := List.mem_singleton.1 hf
      simp [Region.backingFile?, Database.region, sampleDatabase, Region.ofFile, sampleFile]
    · cases hf
  rw [hsame hunseen] at hsettled
  exact hsettled

end Process

/-! ## Sessions -/

namespace Session

/-- What a session has of the process's database. -/
def process (s : Session) : Process :=
  ⟨s.host, s.installed⟩

theorem process_getOrOpen (config : Config) (running : Version) (s : Session) :
    (s.getOrOpen config running).2.process
      = (Process.Call.getOrOpen config running).apply s.process :=
  rfl

theorem process_install {s : Session} {name : String} {db : Database}
    (hdb : s.database? name = some db) (seated : db.store.Seated) :
    (s.install name).2.process = (Process.Call.install db seated).apply s.process := by
  simp only [install, hdb]
  split <;> rfl

theorem process_change_nil (h : Host) (s : Session) :
    process { s with host := h } = (Process.Call.change h []).apply s.process := by
  have hsame : s.installed.map (fun db => db.seeing []) = s.installed := Option.map_id_apply
  rw [Process.Call.apply, process, process, hsame]

/-- Packing rows is a change of the files, and what it writes in place is its output. -/
theorem process_packCsv (input output : Path) (o : PackOptions) (s : Session) :
    ∃ host written, (∀ f ∈ written, host.disk.file? output = some f)
      ∧ (s.packCsv input output o).2.process
        = (Process.Call.change host written).apply s.process := by
  rw [packCsv]
  split
  · next e t hrun =>
    obtain ⟨-, rfl⟩ := Prod.mk.inj hrun
    exact ⟨_, [], nofun, process_change_nil _ _⟩
  · next n t hrun =>
    obtain ⟨-, rfl⟩ := Prod.mk.inj hrun
    split
    · exact ⟨_, [], nofun, process_change_nil _ _⟩
    · next f hf =>
      refine ⟨_, [f], ?_, rfl⟩
      intro g hg
      rwa [List.mem_singleton.1 hg]

end Session

end OffsetAtlas
