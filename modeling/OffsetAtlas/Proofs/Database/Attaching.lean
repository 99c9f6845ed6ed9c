/-
OffsetAtlas.Proofs.Database.Attaching — loads that find a file under the region's name.

A load of either encoding asks for the region of its source and makes the table that fills it
(`Accepted.load_eq`). If the file of the region is there it is believed, whatever is in it: a file
of another size makes the load fail (`Accepted.load_of_size_ne`), and a file of the right size is
the table (`Accepted.load_of_block`).

Names do not tell encodings apart. A byte string that is accepted as a delta file and as rows of
text has one region for both, and the encoding that is loaded second gets the table of the first;
its look-ups answer as they should exactly if the two tables are the same (`load_after_load`).
-/
import OffsetAtlas.Proofs.Database.Encoding
import OffsetAtlas.Proofs.Region.Sharing
import OffsetAtlas.Proofs.Table.Ordered

namespace OffsetAtlas

open Region (Ready lockedDisk)

namespace Encoding

/-- Loads the table of a byte string; a failure of rows names a path. -/
def load (e : Encoding) (path : Path) (source : List UInt8) (running : Version)
    (location : RegionLocation) : HostM Store :=
  match e with
  | .delta => Prod.fst <$> Store.loadDelta source running location
  | .rows => Prod.fst <$> Store.loadRows source path running location

/-- A byte string that is accepted as the source of these entries. -/
structure Accepted (e : Encoding) (source : List UInt8) (running : Version) (es : List Entry) :
    Prop where
  entries : e.entries? source = some es
  bounded : es.length * Entry.size < addressSpace
  accepted : match e with
    | .delta => ((Attempt.on (.ofBytes source) Delta.Header.read).1.bind fun header =>
        Store.checkDelta running header) = .ok ()
    | .rows => es ≠ []

end Encoding

/-! ## Tables that fill regions -/

namespace Store

/-- The ordered table at the start of a block. -/
def orderedOf (block : ByteArray) (n : Nat) (h : block.size = n * Entry.size) : OrderedTable :=
  ⟨block, 0, n, by omega⟩

theorem ofOrdered_of_size {block : ByteArray} {n : Nat} (h : block.size = n * Entry.size)
    (hn : n * Entry.size < addressSpace) :
    Table.ofOrdered block 0 n = .ok (.ordered (orderedOf block n h)) := by
  have hn' : ¬ addressSpace ≤ 0 + n * Entry.size := by omega
  have hinside : 0 + n * Entry.size ≤ block.size := by omega
  simp only [Table.ofOrdered, OrderedTable.of, Span.of, if_neg hn', dif_pos hinside]
  rfl

theorem entries_orderedOf {block : ByteArray} {es : List Entry} (hblock : block = tableBlock es)
    (h : block.size = es.length * Entry.size) : (orderedOf block es.length h).entries = es :=
  OrderedTable.entries_eq hblock rfl rfl

theorem fillingOrdered_of_size {r : Region} {n : Nat} (h : r.bytes.size = n * Entry.size)
    (hn : n * Entry.size < addressSpace) (host : Host) :
    fillingOrdered r n host = (.ok ⟨r, .ordered (orderedOf r.bytes n h)⟩, host) := by
  rw [fillingOrdered, Region.releaseOnFailure, Attempt.ofExcept_bind (ofOrdered_of_size h hn)]
  rfl

/-- A table that leaves the address space is refused. -/
theorem fillingOrdered_too_large {n : Nat} (hn : addressSpace ≤ n * Entry.size) (r : Region)
    (host : Host) :
    fillingOrdered r n host
      = (.error (.malformedHeader (.countTooLarge "entry count" n)), r.release host) := by
  have hn' : addressSpace ≤ 0 + n * Entry.size := by omega
  rw [fillingOrdered, Region.releaseOnFailure, Attempt.bind_apply, Attempt.ofExcept_apply]
  simp only [Table.ofOrdered, OrderedTable.of, Span.of, if_pos hn']
  rfl

end Store

namespace Encoding

variable {e : Encoding} {path : Path} {source : List UInt8} {running : Version}
  {es : List Entry} {location : RegionLocation} {h : Host}

/-- What stands in front of a load: nothing, or remarks about rows. -/
def before (e : Encoding) (source : List UInt8) (running : Version) (h : Host) : Host :=
  match e with
  | .delta => h
  | .rows => Store.parsedHost (Csv.parse source) running h

@[simp] theorem disk_before (e : Encoding) (source : List UInt8) (running : Version) (h : Host) :
    (e.before source running h).disk = h.disk := by
  cases e with
  | delta => rfl
  | rows => exact Store.disk_parsedHost _ running h

/-- An accepted load is a region of the right size, remarks, and the table in the region. -/
theorem Accepted.load_eq (ha : e.Accepted source running es) (path : Path)
    (location : RegionLocation) (h : Host) :
    ∃ fill, ∃ notes : Region → List Notice, e.Fills source (es.length * Entry.size) fill
      ∧ e.load path source running location h
        = (do
            let r ← Region.createOrAttach location (regionName running source)
              (es.length * Entry.size) fill
            Host.noteAll (notes r)
            Store.fillingOrdered r es.length : HostM Store) (e.before source running h) := by
  cases e with
  | delta =>
    obtain ⟨header, hread, hcheck⟩ := Store.accepted_of_ok ha.accepted
    have hfills := Store.fills_delta hread
    have hcount : header.addressCount = es.length := by
      have hblock : delta.block? source = some (tableBlock es) := by simp [block?, ha.entries]
      have := hfills.sized _ hblock
      rw [size_tableBlock] at this
      exact (Nat.eq_of_mul_eq_mul_right (by decide) this).symm
    rw [← hcount]
    refine ⟨_, fun r => [Store.readyNotice header r], hfills, ?_⟩
    rw [load, Attempt.map_apply, Store.loadDelta_of_header hread hcheck, ← Attempt.map_apply,
      map_bind]
    simp only [Store.finishDelta, map_bind, map_pure, bind_pure]
    rfl
  | rows =>
    obtain rfl : (Csv.parse source).entries = es := Option.some.inj ha.entries
    refine ⟨_, fun _ => Store.reportNotices (Csv.parse source).report, Store.fills_rows source, ?_⟩
    rw [load, Attempt.map_apply, Store.loadRows_of_entries ha.accepted, ← Attempt.map_apply,
      map_bind]
    simp only [Store.finishRows, map_bind, map_pure, bind_pure]
    rfl

/-- The rest of a load, once there is a region of the right size. -/
theorem finish_apply {r : Region} {n : Nat} (hsize : r.bytes.size = n * Entry.size)
    (hn : n * Entry.size < addressSpace) (notes : List Notice) (h : Host) :
    (do Host.noteAll notes; Store.fillingOrdered r n : HostM Store) h
      = (.ok ⟨r, .ordered (Store.orderedOf r.bytes n hsize)⟩, notes.foldl Host.noted h) := by
  rw [Host.noteAll_bind]
  exact Store.fillingOrdered_of_size hsize hn _

theorem Accepted.block (ha : e.Accepted source running es) :
    e.block? source = some (tableBlock es) := by
  simp [block?, ha.entries]

/-- A private load of an accepted byte string gives its entries. -/
theorem Accepted.load_private (ha : e.Accepted source running es) (path : Path) (h : Host) :
    ∃ st t, (e.load path source running .anonymous h).1 = .ok st
      ∧ st.table = .ordered t ∧ t.entries = es := by
  obtain ⟨fill, notes, hfills, hload⟩ := ha.load_eq path .anonymous h
  have hfit : Region.fitted (es.length * Entry.size) (tableBlock es) = tableBlock es :=
    if_pos (size_tableBlock es)
  rw [hload, Attempt.bind_apply, Region.createOrAttach_anonymous,
    (hfills.filled _).2 ha.block]
  simp only [hfit]
  rw [finish_apply (size_tableBlock es) ha.bounded]
  exact ⟨_, _, rfl, rfl, Store.entries_orderedOf rfl _⟩

/-- A private load of a file of rows gives the rows' entries and their report. -/
theorem loadCsv_private {block : ByteArray} (hread : h.disk.read path = .ok block)
    (hne : (Csv.parse (octets block)).entries ≠ [])
    (hroom : (Csv.parse (octets block)).entries.length * Entry.size < addressSpace)
    (running : Version) :
    ∃ st t h', Store.loadCsv path running .anonymous h
        = (.ok (st, (Csv.parse (octets block)).report), h')
      ∧ st.table = .ordered t ∧ t.entries = (Csv.parse (octets block)).entries := by
  have haccepted : rows.Accepted (octets block) running (Csv.parse (octets block)).entries :=
    ⟨rfl, hroom, hne⟩
  obtain ⟨st, t, hload, htable, hentries⟩ := haccepted.load_private path h
  obtain ⟨⟨st, report⟩, hrows, rfl⟩ := Attempt.map_eq_ok.1 (Prod.ext hload rfl)
  have hreport : report = (Csv.parse (octets block)).report := by
    rw [Store.loadRows_of_entries hne] at hrows
    obtain ⟨_, _, -, hrows⟩ := Attempt.bind_eq_ok.1 hrows
    obtain ⟨_, _, -, hrows⟩ := Attempt.bind_eq_ok.1 hrows
    obtain ⟨_, _, -, hrows⟩ := Attempt.bind_eq_ok.1 hrows
    cases hrows
    rfl
  exact ⟨st, t, _, (Store.loadCsv_of_read hread).trans (hreport ▸ hrows), htable, hentries⟩

/-- A table whose header was accepted fits the address space. -/
theorem bounded_of_checkDelta {header : Delta.Header}
    (hcheck : Store.checkDelta running header = .ok ()) :
    header.addressCount * Entry.size < addressSpace := by
  unfold Store.checkDelta at hcheck
  split at hcheck
  · cases hcheck
  · split at hcheck
    · cases hcheck
    · omega

theorem accepted_of_loadDelta {st : Store}
    (hload : (delta.load path source running .anonymous h).1 = .ok st) :
    ∃ es, delta.Accepted source running es := by
  have hrun : delta.load path source running .anonymous h = (.ok st, _) := Prod.ext hload rfl
  obtain ⟨⟨_, header⟩, hrun, -⟩ := Attempt.map_eq_ok.1 hrun
  obtain ⟨r, region, g, hread, hcheck, hregion, -⟩ := Store.loadDelta_eq_ok hrun
  have hfills := Store.fills_delta hread
  rw [Region.createOrAttach_anonymous] at hregion
  cases hfill : Store.decodeDelta header r () with
  | error e =>
    rw [hfill] at hregion
    cases hregion
  | ok b =>
    have hblock := (hfills.filled b).1 hfill
    obtain ⟨es, hes, rfl⟩ := Option.map_eq_some_iff.1 hblock
    have hsize := hfills.sized _ hblock
    rw [size_tableBlock] at hsize
    refine ⟨es, hes, hsize ▸ bounded_of_checkDelta hcheck, ?_⟩
    rw [hread]
    exact hcheck

theorem accepted_of_loadRows {st : Store}
    (hload : (rows.load path source running .anonymous h).1 = .ok st) :
    ∃ es, rows.Accepted source running es := by
  rw [load, Attempt.map_apply] at hload
  have hne : (Csv.parse source).entries ≠ [] := by
    intro hempty
    rw [Store.loadRows_of_empty hempty] at hload
    cases hload
  -- rows that leave the address space are refused only once they are in the region
  refine ⟨_, rfl, Nat.lt_of_not_le fun hlarge => ?_, hne⟩
  rw [Store.loadRows_of_entries hne, Attempt.bind_apply, Region.createOrAttach_anonymous] at hload
  simp only [Store.finishRows] at hload
  rw [Host.noteAll_bind, Attempt.bind_of_error (Store.fillingOrdered_too_large hlarge _ _)] at hload
  cases hload

/-- A private load that succeeds accepts its byte string. -/
theorem accepted_of_load {st : Store}
    (hload : (e.load path source running .anonymous h).1 = .ok st) :
    ∃ es, e.Accepted source running es := by
  cases e with
  | delta => exact accepted_of_loadDelta hload
  | rows => exact accepted_of_loadRows hload

/-! ## Files that are there -/

variable {dir : Path} {place : Place} {f : File}

theorem Accepted.load_of_size_ne (ha : e.Accepted source running es)
    (hr : Ready h.disk dir place (regionName running source))
    (hn : h.disk.node? (place ++ [regionName running source]) = some (.file f))
    (hsize : f.contents.size ≠ es.length * Entry.size) (path : Path) :
    (e.load path source running (.shared dir) h).1
      = .error (.regionSizeMismatch (regionName running source) (es.length * Entry.size)
          f.contents.size) := by
  obtain ⟨fill, notes, -, hload⟩ := ha.load_eq path (.shared dir) h
  rw [← e.disk_before source running h] at hr hn
  rw [hload, Attempt.bind_apply, Region.createOrAttach_of_file hr hn, if_neg hsize]

/-- Whatever entries are in a file of the right size, they are handed out. -/
theorem Accepted.load_of_block (ha : e.Accepted source running es)
    (hr : Ready h.disk dir place (regionName running source))
    (hn : h.disk.node? (place ++ [regionName running source]) = some (.file f))
    (found : List Entry) (hblock : f.contents = tableBlock found)
    (hlength : found.length = es.length) (path : Path) :
    ∃ st t h', e.load path source running (.shared dir) h = (.ok st, h')
      ∧ h'.disk = lockedDisk h.disk place (regionName running source)
      ∧ st.region.role = .attached ∧ st.table = .ordered t ∧ t.entries = found := by
  obtain ⟨fill, notes, -, hload⟩ := ha.load_eq path (.shared dir) h
  rw [← e.disk_before source running h] at hr hn ⊢
  have hsize : f.contents.size = es.length * Entry.size := by
    rw [hblock, size_tableBlock, hlength]
  rw [hload, Attempt.bind_apply, Region.createOrAttach_of_file hr hn, if_pos hsize]
  simp only
  rw [finish_apply hsize ha.bounded]
  exact ⟨_, _, _, rfl, Host.disk_foldl_noted .., rfl, rfl,
    OrderedTable.entries_eq hblock rfl hlength.symm⟩

/-- Where nothing is there yet, the file is made with the block of the entries. -/
theorem Accepted.load_of_none (ha : e.Accepted source running es)
    (hr : Ready h.disk dir place (regionName running source))
    (hn : h.disk.node? (place ++ [regionName running source]) = none) (path : Path) :
    ∃ st t h', e.load path source running (.shared dir) h = (.ok st, h')
      ∧ h'.disk = ((lockedDisk h.disk place (regionName running source)).putNew
        (place ++ [regionName running source]) (tableBlock es)).2
      ∧ st.region.role = .owner ∧ st.table = .ordered t ∧ t.entries = es := by
  obtain ⟨fill, notes, hfills, hload⟩ := ha.load_eq path (.shared dir) h
  have hfit : Region.fitted (es.length * Entry.size) (tableBlock es) = tableBlock es :=
    if_pos (size_tableBlock es)
  rw [← e.disk_before source running h] at hr hn ⊢
  rw [hload, Attempt.bind_apply, Region.createOrAttach_of_none hr hn, (hfills.filled _).2 ha.block]
  simp only [hfit]
  rw [finish_apply (size_tableBlock es) ha.bounded]
  exact ⟨_, _, _, rfl, Host.disk_foldl_noted .., rfl, rfl, Store.entries_orderedOf rfl _⟩

/-! ## One name for two encodings -/

/-- Tables of one length that both stand for a byte string answer alike only if they are the
same. -/
theorem entries_eq_of_find_eq {e e' : Encoding} {es es' : List Entry} {t u : OrderedTable}
    (hes : e.entries? source = some es) (hes' : e'.entries? source = some es')
    (ht : t.entries = es) (hu : u.entries = es') (hlength : es.length = es'.length)
    (hfind : ∀ id, t.find id = u.find id) : es = es' := by
  have hrows : ∀ {xs : List Entry}, rows.entries? source = some xs →
      xs.Pairwise fun a b => a.id < b.id := by
    rintro xs hxs
    cases hxs
    exact Csv.entries_parse_ascending source
  subst ht hu
  have hlength' : t.length = u.length := by simpa using hlength
  cases e with
  | rows =>
    exact OrderedTable.entries_eq_of_find_eq (hrows hes) (entries?_ascending hes') hlength' hfind
  | delta =>
    cases e' with
    | rows =>
      exact (OrderedTable.entries_eq_of_find_eq (hrows hes') (entries?_ascending hes) hlength'.symm
        fun id => (hfind id).symm).symm
    | delta => exact Option.some.inj (hes.symm.trans hes')

/-- **A region answers for the encoding it was made from.** Let a byte string be accepted in two
ways, with tables of one length, and load it one way and then the other with shared regions. The
second load gets the table of the first, and answers every look-up as a private load does if and
only if the two tables are the same. -/
theorem load_after_load {e e' : Encoding} {path path' : Path} {v : Version} {st st' : Store}
    {hp hp' : Host} (hfirst : (e.load path source v .anonymous hp).1 = .ok st)
    (hsecond : (e'.load path' source v .anonymous hp').1 = .ok st')
    (hlength : st.table.length = st'.table.length)
    (hr : Ready h.disk dir place (regionName v source))
    (hnone : h.disk.node? (place ++ [regionName v source]) = none) :
    ∃ shared h' shared', e.load path source v (.shared dir) h = (.ok shared, h')
      ∧ (e'.load path' source v (.shared dir) h').1 = .ok shared'
      ∧ shared'.table.entries = st.table.entries
      ∧ ((∀ id, shared'.table.find id = st'.table.find id)
        ↔ st.table.entries = st'.table.entries) := by
  obtain ⟨es, ha⟩ := accepted_of_load hfirst
  obtain ⟨es', ha'⟩ := accepted_of_load hsecond
  obtain ⟨_, t, hst, ht, hes⟩ := ha.load_private path hp
  obtain ⟨_, u, hst', hu, hes'⟩ := ha'.load_private path' hp'
  cases hfirst.symm.trans hst
  cases hsecond.symm.trans hst'
  have hlength' : es.length = es'.length := by
    rw [ht, hu] at hlength
    rw [← hes, ← hes', OrderedTable.length_entries, OrderedTable.length_entries]
    exact hlength
  obtain ⟨shared, -, h', hmade, hdisk, -⟩ := ha.load_of_none hr hnone path
  obtain ⟨shared', w, _, hshared', -, -, hw, hfound⟩ := ha'.load_of_block
    (hdisk ▸ hr.made hnone _) (hdisk ▸ Region.node?_made _) _ rfl hlength' path'
  refine ⟨shared, h', shared', hmade, congrArg Prod.fst hshared', ?_, ?_⟩
  · rw [hw, ht]
    exact hfound.trans hes.symm
  · rw [hw, hu, ht]
    constructor
    · intro hfind
      exact hes.trans ((entries_eq_of_find_eq ha.entries ha'.entries hfound hes' hlength'
        hfind).trans hes'.symm)
    · intro heq id
      exact OrderedTable.find_congr (hfound.trans (hes.symm.trans heq)) id

/-- A root directory with a region directory and nothing else. -/
def bareDisk : Disk :=
  ⟨[(["regions"], .directory)], [], 0⟩

theorem find_regions {nodes : List (Place × Node)} {n : Nat} :
    (⟨(["regions"], .directory) :: nodes, [], n⟩ : Disk).find ⟨"regions"⟩
      = .ok (["regions"], .directory) := by
  rw [Disk.find_name (by decide) rfl rfl]
  rfl

theorem ready_bareDisk (v : Version) (source : List UInt8) :
    Ready bareDisk ⟨"regions"⟩ ["regions"] (regionName v source) where
  found := find_regions
  fits := fitsBelow_regionName (by decide) v source
  fitsLock := fitsBelow_lockName (by decide) v source
  lockFree := by simp [Disk.node?, bareDisk, List.lookup_cons]

/-- The payload of a delta file with the entry 1, 1, whose name makes it rows of text with the entry
5, 7. -/
def polyglot : List UInt8 :=
  (⟨⟨1, 0, 0, 0⟩, "\nx\n5,7\n", 8, 1⟩ : Delta.Header).bytes ++ [0x11]

theorem accepted_delta_polyglot : delta.Accepted polyglot ⟨1, 0, 0, 0⟩ [⟨1, 1⟩] where
  entries := by
    have hread : Attempt.on (.ofBytes polyglot) Delta.Header.read
        = (.ok ⟨⟨1, 0, 0, 0⟩, Text.Utf8.untilNul (Text.Utf8.encode "\nx\n5,7\n"), 8, 1⟩,
            ⟨35, [0x11]⟩) := rfl
    have hdecode : (Attempt.on ⟨35, [0x11]⟩ (Delta.decodeRecords 8 1)).1 = .ok [⟨1, 1⟩] := rfl
    simp only [entries?, hread, hdecode]
    simp [Except.toOption, sortById]
  bounded := by decide
  accepted := rfl

theorem accepted_rows_polyglot : rows.Accepted polyglot ⟨1, 0, 0, 0⟩ [⟨5, 7⟩] where
  entries := by
    have hlines : (Text.split Csv.newline polyglot).drop 2
        = [[0x35, 0x2C, 0x37], [8, 0, 0, 0, 1, 0, 0, 0, 0x11]] := by decide
    have hgood : Csv.Row.ofLine [0x35, 0x2C, 0x37] = .good 5 7 := by
      rw [Csv.Row.ofLine, Text.Utf8.decode?_of_ascii (by decide)]
      decide
    have hbad : Csv.Row.ofLine [8, 0, 0, 0, 1, 0, 0, 0, 0x11]
        = .bad (.noComma ([8, 0, 0, 0, 1, 0, 0, 0, 0x11].map Char.ofNat)) := by
      rw [Csv.Row.ofLine, Text.Utf8.decode?_of_ascii (by decide)]
      decide
    have hrows : Csv.goodRows ((Text.split Csv.newline polyglot).drop 2) = [⟨5, 7⟩] := by
      rw [hlines, Csv.goodRows_cons, Csv.goodRows_cons, hgood, hbad]
      rfl
    exact congrArg some (Csv.entries_parse_eq (List.pairwise_singleton _ _) fun id => by rw [hrows])
  bounded := by decide
  accepted := by simp

theorem load_after_load_polyglot :
    ∃ st st' shared h' shared',
      (delta.load ⟨"a.bin"⟩ polyglot ⟨1, 0, 0, 0⟩ .anonymous (.ofDisk bareDisk)).1 = .ok st
      ∧ (rows.load ⟨"a.csv"⟩ polyglot ⟨1, 0, 0, 0⟩ .anonymous (.ofDisk bareDisk)).1 = .ok st'
      ∧ delta.load ⟨"a.bin"⟩ polyglot ⟨1, 0, 0, 0⟩ (.shared ⟨"regions"⟩) (.ofDisk bareDisk)
        = (.ok shared, h')
      ∧ (rows.load ⟨"a.csv"⟩ polyglot ⟨1, 0, 0, 0⟩ (.shared ⟨"regions"⟩) h').1 = .ok shared'
      ∧ shared'.table.entries = st.table.entries
      ∧ ((∀ id, shared'.table.find id = st'.table.find id)
        ↔ st.table.entries = st'.table.entries) := by
  obtain ⟨st, t, hst, ht, hes⟩ :=
    accepted_delta_polyglot.load_private ⟨"a.bin"⟩ (.ofDisk bareDisk)
  obtain ⟨st', u, hst', hu, hes'⟩ :=
    accepted_rows_polyglot.load_private ⟨"a.csv"⟩ (.ofDisk bareDisk)
  have hlength : st.table.length = st'.table.length := by
    have h1 : t.length = 1 := by rw [← t.length_entries, hes]; rfl
    have h2 : u.length = 1 := by rw [← u.length_entries, hes']; rfl
    rw [ht, hu]
    exact h1.trans h2.symm
  obtain ⟨shared, h', shared', hrest⟩ := load_after_load (h := .ofDisk bareDisk) hst hst' hlength
    (ready_bareDisk ⟨1, 0, 0, 0⟩ polyglot)
    (by simp [Host.ofDisk, Disk.node?, bareDisk, List.lookup_cons])
  exact ⟨st, st', shared, h', shared', hst, hst', hrest⟩

/-- One byte string, two tables of one length: the rows have the entry 5, 7, and look-ups in the
region that the delta file left do not find it. -/
theorem polyglot_tables_differ :
    ∃ st st' shared h' shared',
      (delta.load ⟨"a.bin"⟩ polyglot ⟨1, 0, 0, 0⟩ .anonymous (.ofDisk bareDisk)).1 = .ok st
      ∧ (rows.load ⟨"a.csv"⟩ polyglot ⟨1, 0, 0, 0⟩ .anonymous (.ofDisk bareDisk)).1 = .ok st'
      ∧ st.table.entries = [⟨1, 1⟩] ∧ st'.table.entries = [⟨5, 7⟩]
      ∧ delta.load ⟨"a.bin"⟩ polyglot ⟨1, 0, 0, 0⟩ (.shared ⟨"regions"⟩) (.ofDisk bareDisk)
        = (.ok shared, h')
      ∧ (rows.load ⟨"a.csv"⟩ polyglot ⟨1, 0, 0, 0⟩ (.shared ⟨"regions"⟩) h').1 = .ok shared'
      ∧ st'.table.find 5 = some 7 ∧ shared'.table.find 5 = none := by
  obtain ⟨st, t, hst, ht, hes⟩ :=
    accepted_delta_polyglot.load_private ⟨"a.bin"⟩ (.ofDisk bareDisk)
  obtain ⟨st', u, hst', hu, hes'⟩ :=
    accepted_rows_polyglot.load_private ⟨"a.csv"⟩ (.ofDisk bareDisk)
  have hr := ready_bareDisk ⟨1, 0, 0, 0⟩ polyglot
  have hnone : bareDisk.node? (["regions"] ++ [regionName ⟨1, 0, 0, 0⟩ polyglot]) = none := by
    simp [Disk.node?, bareDisk, List.lookup_cons]
  obtain ⟨shared, -, h', hmade, hdisk, -⟩ :=
    accepted_delta_polyglot.load_of_none (h := .ofDisk bareDisk) hr hnone ⟨"a.bin"⟩
  obtain ⟨shared', w, _, hshared', -, -, hw, hfound⟩ :=
    accepted_rows_polyglot.load_of_block (hdisk ▸ hr.made hnone _) (hdisk ▸ Region.node?_made _)
      [⟨1, 1⟩] rfl rfl ⟨"a.csv"⟩
  refine ⟨st, st', shared, h', shared', hst, hst', ?_, ?_, hmade, congrArg Prod.fst hshared',
    ?_, ?_⟩
  · rw [ht]
    exact hes
  · rw [hu]
    exact hes'
  · rw [hu]
    exact OrderedTable.find_singleton hes' 5
  · rw [hw]
    exact OrderedTable.find_singleton hfound 5

end Encoding

end OffsetAtlas
