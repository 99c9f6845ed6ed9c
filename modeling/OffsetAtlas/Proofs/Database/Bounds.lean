/-
OffsetAtlas.Proofs.Database.Bounds — no file leads a look-up out of bounds.

The counts in a file are what its author put there. They go into a sum that is compared with the
address space and with the region once, before there is a store, and everything later relies on
that: whatever the bytes were, a load that succeeds gives a table on which no step of any look-up
fails (`RawDatabase.load_in_bounds`). What is read before the check is read through a cursor, and
the cursor knows how much is left (`Reader.Accounts`).
-/
import OffsetAtlas.Proofs.Bytes.Cursor
import OffsetAtlas.Proofs.Database.Seated
import OffsetAtlas.Proofs.Packing.RoundTrip
import OffsetAtlas.Proofs.Table.Checked

namespace OffsetAtlas

/-! ## Tables that were made -/

theorem Table.fits_of_ofOrdered {block : ByteArray} {start length : Nat} {t : Table}
    (h : ofOrdered block start length = .ok t) : t.Fits := by
  obtain ⟨hsmall, -, rfl⟩ := ofOrdered_eq_ok.1 h
  exact hsmall

theorem Table.fits_of_ofDense {block : ByteArray} {start length : Nat} {t : Table}
    (h : ofDense block start length = .ok t) : t.Fits := by
  obtain ⟨hsmall, -, rfl⟩ := ofDense_eq_ok.1 h
  exact hsmall

theorem Store.Made.inBounds {st : Store} (hst : st.Made) : st.table.InBounds st.region.bytes := by
  have hfits : st.table.Fits := by
    cases hst with
    | ordered made => exact Table.fits_of_ofOrdered made
    | dense made => exact Table.fits_of_ofDense made
  have hseated : st.table.block = st.region.bytes := hst.seated
  exact hseated ▸ hfits.inBounds

/-! ## Cursors -/

/-- Whatever the bytes are, what is left of them can be asked for at every cursor, and the readings
that loads are made of end at one. -/
structure Reader.Accounts (source : List UInt8) : Prop where
  remaining : ∀ r, Reached source r → Checked.sub source.length r.position = some r.remaining
  packed : Reached source (Reader.u64 "entry count" (.ofBytes source)).2
  tag : Reached source (Reader.u32 "format tag" (.ofBytes source)).2
  dense : Reached source (Dense.Header.read (.ofBytes source)).2
  delta : Reached source (Delta.Header.read (.ofBytes source)).2
  records : ∀ pointerSize count, Reached source
    (Delta.decodeRecords pointerSize count (Delta.Header.read (.ofBytes source)).2).2

theorem Reader.accounts (source : List UInt8) : Accounts source where
  remaining r hr := by
    rw [hr.within.remaining_eq]
    exact Checked.sub_of_le hr.within.position_le
  packed := stays_u64 _ _ _ .start
  tag := stays_u32 _ _ _ .start
  dense := Dense.Header.stays_read _ _ .start
  delta := Delta.Header.stays_read _ _ .start
  records pointerSize count :=
    Delta.stays_decodeRecords pointerSize count _ _ (Delta.Header.stays_read _ _ .start)

/-! ## Files -/

/-- A binary database that nobody has looked at: a packed file, a file with a tag in front, or what
stands behind the tag of a delta file. -/
inductive RawDatabase where
  | packed (path : Path)
  | tagged (path : Path) (location : RegionLocation)
  | delta (payload : List UInt8) (location : RegionLocation)

namespace RawDatabase

/-- The store that a load makes. -/
def load (running : Version) : RawDatabase → HostM Store
  | packed path => Store.loadPacked path
  | tagged path location => Database.Decoded.store <$> Database.decodeTagged path running location
  | delta payload location => Prod.fst <$> Store.loadDelta payload running location

variable {c : RawDatabase} {running : Version} {h h' : Host} {st : Store}

theorem made_of_load (hload : c.load running h = (.ok st, h')) : st.Made := by
  cases c with
  | packed path => exact Store.made_loadPacked hload
  | tagged path location =>
    obtain ⟨x, hx, rfl⟩ := Attempt.map_eq_ok.1 hload
    exact Database.made_decodeTagged hx
  | delta payload location =>
    obtain ⟨⟨_, header⟩, hx, rfl⟩ := Attempt.map_eq_ok.1 hload
    exact Store.made_loadDelta hx

/-- **Look-ups stay in bounds.** Of every file, for every version and on every host, a load that
succeeds gives a table whose items lie in its region, and on which look-ups, listings and the index
have an answer in arithmetic that can fail; and in every byte string the cursor of a reading can
tell what is left. -/
theorem load_in_bounds (c : RawDatabase) (running : Version) (h : Host) :
    (∀ st h', c.load running h = (.ok st, h') → st.table.InBounds st.region.bytes)
      ∧ ∀ source, Reader.Accounts source :=
  ⟨fun _ _ hload => (made_of_load hload).inBounds, Reader.accounts⟩

/-- A packed file whose entries descend. -/
theorem load_in_bounds_descending :
    ∃ st h', (packed ⟨"a.bin"⟩).load ⟨1, 0, 0, 0⟩
        (.ofDisk (Packing.packedDisk [⟨7, 32⟩, ⟨5, 16⟩])) = (.ok st, h')
      ∧ st.table.InBounds st.region.bytes ∧ Reader.Accounts (octets st.region.bytes) := by
  obtain ⟨t, hload, -⟩ := Packing.loadPacked_encode
    (h := .ofDisk (Packing.packedDisk [⟨7, 32⟩, ⟨5, 16⟩])) (Packing.file_packedDisk _) rfl
    (by decide)
  obtain ⟨hstore, haccounts⟩ := load_in_bounds (packed ⟨"a.bin"⟩) ⟨1, 0, 0, 0⟩
    (.ofDisk (Packing.packedDisk [⟨7, 32⟩, ⟨5, 16⟩]))
  exact ⟨_, _, hload, hstore _ _ hload, haccounts _⟩

end RawDatabase

end OffsetAtlas
