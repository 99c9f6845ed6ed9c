/-
OffsetAtlas.Database.Load — from the bytes of a file to a table in a region.

Packed and dense files are used as they are. Delta files and rows of text are decoded into a region
that is named after their bytes, and only if nobody has done it yet; what is decoded is sorted by
identifier first, and the sort leaves equal identifiers in their order. The header, and for text the
existence of a good row, is checked before there is a region.
-/
import OffsetAtlas.Csv.Parse
import OffsetAtlas.Delta.Header
import OffsetAtlas.Dense
import OffsetAtlas.Packed
import OffsetAtlas.Region
import OffsetAtlas.Table.Reverse

namespace OffsetAtlas

open Text.Numeral (decimal)

/-- A table and the region that it lies in. -/
structure Store where
  region : Region
  table : Table

/-- The bytes of a block, one after another. -/
def octets (block : ByteArray) : List UInt8 :=
  block.data.toList

/-- The block of an ordered table. -/
def tableBlock (entries : List Entry) : ByteArray :=
  ⟨(tableBytes entries).toArray⟩

namespace Store

/-- The ordered table that fills a region. -/
def fillingOrdered (region : Region) (length : Nat) : HostM Store :=
  region.releaseOnFailure do
    let table ← Attempt.ofExcept (Table.ofOrdered region.bytes 0 length)
    return ⟨region, table⟩

/-! ## Packed files -/

/-- The table of a packed file. -/
def loadPacked (path : Path) : HostM Store := do
  let region ← Region.mapFile path
  let table ← Attempt.ofExcept (Packed.table region.bytes)
  return ⟨region, table⟩

/-! ## Dense files -/

/-- The table of a dense file that is read in place. -/
def ofDenseRegion (region : Region) (running : Version) : HostM (Store × Dense.Header) := do
  let header ← Attempt.ofExcept (Dense.headerFor region.bytes running)
  Host.note (.info ("Dense table '" ++ header.name ++ "' mapped: " ++ decimal header.offsetCount
    ++ " slots, pointer size " ++ decimal header.pointerSize.toNat))
  let table ← Attempt.ofExcept (Table.ofDense region.bytes Dense.headerSize header.offsetCount)
  return (⟨region, table⟩, header)

/-! ## Delta files -/

/-- Checks that a header belongs to the running version and its table fits the address space. -/
def checkDelta (running : Version) (h : Delta.Header) : Except Failure Unit :=
  if h.version ≠ running then .error (.versionMismatch running h.version)
  else if addressSpace ≤ h.addressCount * Entry.size then
    .error (.malformedHeader (.countTooLarge "address count" h.addressCount))
  else .ok ()

/-- The block that the records in front of a reader make. -/
def decodeDelta (h : Delta.Header) (r : Reader) (_ : Unit) : Except Failure ByteArray :=
  (Attempt.on r (Delta.decodeRecords h.pointerSize h.addressCount)).1.map fun entries =>
    tableBlock (sortById entries)

/-- The table of a delta file, given what stands behind its tag. -/
def loadDelta (payload : List UInt8) (running : Version) (location : RegionLocation) :
    HostM (Store × Delta.Header) := do
  let read := Attempt.on (.ofBytes payload) Delta.Header.read
  let header ← Attempt.ofExcept read.1
  Attempt.ofExcept (checkDelta running header)
  let region ← Region.createOrAttach location (regionName running payload)
    (header.addressCount * Entry.size) (decodeDelta header read.2)
  Host.note (.info ("Delta-encoded table '" ++ header.name ++ "' ready: "
    ++ decimal header.addressCount ++ " entries, pointer size " ++ decimal header.pointerSize.toNat
    ++ ", region " ++ region.role.title))
  let store ← fillingOrdered region header.addressCount
  return (store, header)

/-! ## Rows of text -/

/-- What is said when a file declares another version than the running one, or none. -/
def versionNotices (running : Version) (declared : Option String) : List Notice :=
  match declared with
  | none => []
  | some text =>
    match Version.parse? text with
    | none => [.warning ("CSV metadata version '" ++ text ++ "' is not a version number")]
    | some v =>
      if v = running then []
      else [.warning ("CSV metadata version " ++ v.display ++ " differs from running version "
        ++ running.display)]

/-- What is said about the rows when their table is ready. -/
def reportNotices (r : Csv.Report) : List Notice :=
  [.info "CSV Address Library loaded successfully:",
    .info ("  - Valid entries: " ++ decimal r.valid)]
    ++ (if 0 < r.invalid then [.warning ("  - Invalid entries: " ++ decimal r.invalid)] else [])
    ++ (if 0 < r.duplicates then
        [.warning ("  - Duplicate entries: " ++ decimal r.duplicates ++ " (latest values used)")]
      else [])
    ++ [.info ("  - Total unique entries: " ++ decimal r.unique)]
    ++ (if r.countMismatch then
        [.warning ("CSV entry count mismatch: metadata = " ++ decimal (r.expected.getD 0)
          ++ ", actual = " ++ decimal r.unique)]
      else [])

/-- The table of rows of text. -/
def loadRows (source : List UInt8) (path : Path) (running : Version) (location : RegionLocation) :
    HostM (Store × Csv.Report) := do
  let parsed := Csv.parse source
  Host.noteAll parsed.notices
  if parsed.entries.isEmpty then Attempt.fail (.emptyCsv path)
  else
    Host.noteAll (versionNotices running parsed.report.version)
    let region ← Region.createOrAttach location (regionName running source)
      (parsed.entries.length * Entry.size) fun _ => .ok (tableBlock parsed.entries)
    Host.noteAll (reportNotices parsed.report)
    let store ← fillingOrdered region parsed.entries.length
    return (store, parsed.report)

/-- The table of a file of rows. -/
def loadCsv (path : Path) (running : Version) (location : RegionLocation) :
    HostM (Store × Csv.Report) := do
  let source ← Host.ask fun d => (d.read path).mapError (.notOpened path)
  loadRows (octets source) path running location

end Store

end OffsetAtlas
