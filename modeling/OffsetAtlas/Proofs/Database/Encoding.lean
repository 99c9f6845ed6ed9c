/-
OffsetAtlas.Proofs.Database.Encoding — the table that a byte string stands for.

Delta files and rows of text are the two encodings whose tables are decoded into a region. Which
table that is depends on the bytes alone (`Encoding.entries?`), and so does the block of bytes that
fills the region (`Encoding.block?`). `loadDelta_of_header` and `loadRows_of_entries` cut a load
into what stands in front of the region and what comes with it, and `fills_delta` and `fills_rows`
say that the region they ask for is exactly that block, already of the right size.
-/
import OffsetAtlas.Database.Load
import OffsetAtlas.Proofs.Attempt.Quiet
import OffsetAtlas.Proofs.Csv.Rows
import OffsetAtlas.Proofs.Delta.Records

namespace OffsetAtlas

/-! ## Sizes -/

theorem length_tableBytes (entries : List Entry) :
    (tableBytes entries).length = entries.length * Entry.size := by
  induction entries with
  | nil => simp [tableBytes]
  | cons e es ih =>
    rw [tableBytes, List.flatMap_cons, List.length_append, Entry.length_bytes, ← tableBytes, ih,
      List.length_cons, Nat.add_mul]
    omega

@[simp] theorem size_tableBlock (entries : List Entry) :
    (tableBlock entries).size = entries.length * Entry.size := by
  simp [tableBlock, ByteArray.size, length_tableBytes]

/-! ## Tables of byte strings -/

/-- The encodings that are decoded into regions. -/
inductive Encoding where
  /-- What stands behind the tag of a delta file. -/
  | delta
  /-- A file of rows. -/
  | rows
  deriving DecidableEq, Repr

namespace Encoding

/-- The entries in the order of the table, unless the bytes cannot be decoded. -/
def entries? : Encoding → List UInt8 → Option (List Entry)
  | .delta, source =>
    match Attempt.on (.ofBytes source) Delta.Header.read with
    | (.error _, _) => none
    | (.ok header, r) =>
      (Attempt.on r (Delta.decodeRecords header.pointerSize header.addressCount)).1.toOption.map
        sortById
  | .rows, source => some (Csv.parse source).entries

theorem entries?_ascending {e : Encoding} {source : List UInt8} {es : List Entry}
    (h : e.entries? source = some es) : es.Pairwise fun a b => a.id ≤ b.id := by
  cases e with
  | rows =>
    cases h
    exact (Csv.entries_parse_ascending source).imp UInt64.le_of_lt
  | delta =>
    simp only [entries?] at h
    split at h
    · cases h
    · obtain ⟨_, -, rfl⟩ := Option.map_eq_some_iff.1 h
      exact sortById_ascending _

/-- The block of the table. -/
def block? (e : Encoding) (source : List UInt8) : Option ByteArray :=
  (e.entries? source).map tableBlock

end Encoding

/-! ## Filling regions -/

/-- A region of this size is filled with the block of a byte string, if there is one. -/
structure Encoding.Fills (e : Encoding) (source : List UInt8) (size : Nat)
    (fill : Unit → Except Failure ByteArray) : Prop where
  filled : ∀ b, fill () = .ok b ↔ e.block? source = some b
  sized : ∀ b, e.block? source = some b → b.size = size

namespace Store

variable {payload source : List UInt8} {header : Delta.Header} {r : Reader} {running : Version}
  {location : RegionLocation} {path : Path} {h : Host}

theorem fills_delta
    (hread : Attempt.on (.ofBytes payload) Delta.Header.read = (.ok header, r)) :
    Encoding.delta.Fills payload (header.addressCount * Entry.size) (decodeDelta header r) := by
  have hblock : Encoding.delta.block? payload = (decodeDelta header r ()).toOption := by
    simp only [Encoding.block?, Encoding.entries?, hread, decodeDelta]
    cases (Attempt.on r (Delta.decodeRecords header.pointerSize header.addressCount)).1 <;> rfl
  refine ⟨fun b => ?_, fun b hb => ?_⟩
  · rw [hblock]
    cases decodeDelta header r () <;> simp [Except.toOption]
  · rw [hblock, decodeDelta] at hb
    cases hd : (Attempt.on r (Delta.decodeRecords header.pointerSize header.addressCount)).1 with
    | error e => simp [hd, Except.map, Except.toOption] at hb
    | ok entries =>
      simp only [hd, Except.map, Except.toOption, Option.some.injEq] at hb
      rw [← hb, size_tableBlock, length_sortById, Delta.length_decodeRecords hd]

theorem fills_rows (source : List UInt8) :
    Encoding.rows.Fills source ((Csv.parse source).entries.length * Entry.size)
      fun _ => .ok (tableBlock (Csv.parse source).entries) := by
  refine ⟨fun b => ?_, fun b hb => ?_⟩
  · simp [Encoding.block?, Encoding.entries?]
  · simp only [Encoding.block?, Encoding.entries?, Option.map_some, Option.some.injEq] at hb
    rw [← hb, size_tableBlock]

/-! ## Loads cut in two -/

/-- What is said about a delta table that is ready. -/
def readyNotice (header : Delta.Header) (region : Region) : Notice :=
  .info ("Delta-encoded table '" ++ header.name ++ "' ready: "
    ++ Text.Numeral.decimal header.addressCount ++ " entries, pointer size "
    ++ Text.Numeral.decimal header.pointerSize.toNat ++ ", region " ++ region.role.title)

/-- What a delta file does once its region is there. -/
def finishDelta (header : Delta.Header) (region : Region) : HostM (Store × Delta.Header) := do
  Host.note (readyNotice header region)
  let store ← fillingOrdered region header.addressCount
  return (store, header)

theorem loadDelta_of_header
    (hread : Attempt.on (.ofBytes payload) Delta.Header.read = (.ok header, r))
    (hcheck : checkDelta running header = .ok ()) :
    loadDelta payload running location h
      = (Region.createOrAttach location (regionName running payload)
          (header.addressCount * Entry.size) (decodeDelta header r) >>= finishDelta header) h := by
  unfold loadDelta
  simp only [hread]
  rw [Attempt.ofExcept_bind rfl, Attempt.ofExcept_bind hcheck]
  rfl

/-- What it means that the header was accepted. -/
theorem accepted_of_ok
    (hok : ((Attempt.on (.ofBytes payload) Delta.Header.read).1.bind fun header =>
      checkDelta running header) = .ok ()) :
    ∃ header, Attempt.on (.ofBytes payload) Delta.Header.read
        = (.ok header, (Attempt.on (.ofBytes payload) Delta.Header.read).2)
      ∧ checkDelta running header = .ok () := by
  cases hread : (Attempt.on (.ofBytes payload) Delta.Header.read).1 with
  | error e => simp [hread, Except.bind] at hok
  | ok header =>
    simp only [hread, Except.bind] at hok
    exact ⟨header, Prod.ext hread rfl, hok⟩

/-- A delta file whose header is not accepted fails in front of the region. -/
theorem loadDelta_refused {e : Failure}
    (hrefused : ((Attempt.on (.ofBytes payload) Delta.Header.read).1.bind fun header =>
      checkDelta running header) = .error e) :
    loadDelta payload running location h = (.error e, h) := by
  unfold loadDelta
  rw [Attempt.bind_apply, Attempt.ofExcept_apply]
  cases hread : (Attempt.on (.ofBytes payload) Delta.Header.read).1 with
  | error e' =>
    simp only [hread, Except.bind, Except.error.injEq] at hrefused
    rw [hrefused]
  | ok header =>
    simp only [hread, Except.bind] at hrefused
    simp only
    rw [Attempt.bind_apply, Attempt.ofExcept_apply, hrefused]

/-- What a load of a delta file that succeeded has gone through. -/
theorem loadDelta_eq_ok {st : Store} {h' : Host}
    (hload : loadDelta payload running location h = (.ok (st, header), h')) :
    ∃ r region g, Attempt.on (.ofBytes payload) Delta.Header.read = (.ok header, r)
      ∧ checkDelta running header = .ok ()
      ∧ Region.createOrAttach location (regionName running payload)
          (header.addressCount * Entry.size) (decodeDelta header r) h = (.ok region, g)
      ∧ fillingOrdered region header.addressCount (g.noted (readyNotice header region))
        = (.ok st, h') := by
  obtain ⟨found, _, hfound, hload⟩ := Attempt.bind_eq_ok.1 hload
  obtain ⟨_, _, hchecked, hload⟩ := Attempt.bind_eq_ok.1 hload
  obtain ⟨region, g, hregion, hload⟩ := Attempt.bind_eq_ok.1 hload
  obtain ⟨_, _, hnote, hload⟩ := Attempt.bind_eq_ok.1 hload
  obtain ⟨st, _, hst, hload⟩ := Attempt.bind_eq_ok.1 hload
  cases hload
  cases hnote
  obtain ⟨hread, rfl⟩ := Prod.mk.inj hfound
  obtain ⟨hcheck, rfl⟩ := Prod.mk.inj hchecked
  exact ⟨_, region, g, Prod.ext hread rfl, hcheck, hregion, hst⟩

/-- What a dense file that was loaded has gone through. -/
theorem ofDenseRegion_eq_ok {region : Region} {st : Store} {found : Dense.Header} {h' : Host}
    (hload : ofDenseRegion region running h = (.ok (st, found), h')) :
    ∃ table, Dense.headerFor region.bytes running = .ok found
      ∧ Table.ofDense region.bytes Dense.headerSize found.offsetCount = .ok table
      ∧ st = ⟨region, table⟩ := by
  obtain ⟨header, _, hheader, hload⟩ := Attempt.bind_eq_ok.1 hload
  obtain ⟨_, _, -, hload⟩ := Attempt.bind_eq_ok.1 hload
  obtain ⟨table, _, htable, hload⟩ := Attempt.bind_eq_ok.1 hload
  cases hload
  exact ⟨table, congrArg Prod.fst hheader, congrArg Prod.fst htable, rfl⟩

/-- What a file of rows does once its region is there. -/
def finishRows (parsed : Csv.Parsed) (region : Region) : HostM (Store × Csv.Report) := do
  Host.noteAll (reportNotices parsed.report)
  let store ← fillingOrdered region parsed.entries.length
  return (store, parsed.report)

/-- The host once the rows have been read. -/
def parsedHost (parsed : Csv.Parsed) (running : Version) (h : Host) : Host :=
  (versionNotices running parsed.report.version).foldl Host.noted
    (parsed.notices.foldl Host.noted h)

theorem quiet_parsedHost (parsed : Csv.Parsed) (running : Version) (h : Host) :
    h.Quiet (parsedHost parsed running h) :=
  (Host.quiet_foldl_noted _ h).trans (Host.quiet_foldl_noted _ _)

@[simp] theorem disk_parsedHost (parsed : Csv.Parsed) (running : Version) (h : Host) :
    (parsedHost parsed running h).disk = h.disk :=
  (quiet_parsedHost parsed running h).disk

theorem loadRows_of_entries (hne : (Csv.parse source).entries ≠ []) :
    loadRows source path running location h
      = (Region.createOrAttach location (regionName running source)
          ((Csv.parse source).entries.length * Entry.size)
          (fun _ => .ok (tableBlock (Csv.parse source).entries))
        >>= finishRows (Csv.parse source)) (parsedHost (Csv.parse source) running h) := by
  unfold loadRows
  rw [Host.noteAll_bind]
  rw [if_neg (by simpa using hne), Host.noteAll_bind]
  rfl

theorem loadRows_of_empty (hempty : (Csv.parse source).entries = []) :
    loadRows source path running location h
      = (.error (.emptyCsv path), (Csv.parse source).notices.foldl Host.noted h) := by
  unfold loadRows
  rw [Host.noteAll_bind]
  rw [if_pos (by simpa using hempty), Attempt.fail_apply]

/-- A file of rows that can be read is loaded from what was read. -/
theorem loadCsv_of_read {block : ByteArray} (hread : h.disk.read path = .ok block) :
    loadCsv path running location h = loadRows (octets block) path running location h := by
  have hask : Host.ask (fun d => (d.read path).mapError (.notOpened path)) h = (.ok block, h) := by
    rw [Host.ask, hread]
    rfl
  exact Attempt.bind_of_ok hask _

end Store

end OffsetAtlas
