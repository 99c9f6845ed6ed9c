/-
OffsetAtlas.Proofs.Packing.RoundTrip — what was packed loads back.

Which entries and options can be packed is `Packable`, and `pack` accepts exactly these
(`pack_isOk_iff`). For each layout the image is then loaded by the loader of that layout, and the
table that it makes has the entries that went in (`Answers`): they are listed in their order, each
of their identifiers is found, and no other one is. A header keeps the version, the pointer size and
the name, which ends at its first NUL.
-/
import OffsetAtlas.Proofs.Database.Attaching
import OffsetAtlas.Proofs.Delta.Header
import OffsetAtlas.Proofs.Delta.RoundTrip
import OffsetAtlas.Proofs.Dense.Image
import OffsetAtlas.Proofs.Packing.Slots

namespace OffsetAtlas

open Text

/-- A table that lists these entries, and answers by them. -/
structure Table.Answers (t : Table) (entries : List Entry) : Prop where
  listed : t.entries = entries
  found : ∀ e ∈ entries, t.find e.id = some e.offset
  missing : ∀ id, (∀ e ∈ entries, e.id ≠ id) → t.find id = none

namespace Packing

variable {entries : List Entry} {o : PackOptions} {image : List UInt8} {t : OrderedTable}

/-! ## What can be packed -/

/-- Entries and options within the bounds of the layout. -/
structure Packable (entries : List Entry) (o : PackOptions) : Prop where
  name : o.name.utf8ByteSize ≤ 63
  pointerSize : o.pointerSize.toNat ≤ 2 ^ 31 - 1
  delta : o.format = .delta → entries.length ≤ 2 ^ 31 - 1
  dense : o.format = .dense → ∀ e ∈ entries,
    e.id.toNat ≤ 2 ^ 31 - 2 ∧ 1 ≤ e.offset.toNat ∧ e.offset.toNat ≤ 2 ^ 32 - 1

theorem countLimit_eq : countLimit = 2 ^ 31 := rfl

theorem checkOptions_of_fits (hname : o.name.utf8ByteSize ≤ 63)
    (hpointer : o.pointerSize.toNat ≤ 2 ^ 31 - 1) : checkOptions o = .ok () := by
  have hname' : ¬ maxNameLength < (Utf8.encode o.name).length := by
    rw [Utf8.length_encode]
    exact Nat.not_lt.2 hname
  have hpointer' : ¬ countLimit ≤ o.pointerSize.toNat := by
    rw [countLimit_eq]
    omega
  rw [checkOptions, if_neg hname', if_neg hpointer']

theorem fits_of_checkOptions (h : checkOptions o = .ok ()) :
    o.name.utf8ByteSize ≤ 63 ∧ o.pointerSize.toNat ≤ 2 ^ 31 - 1 := by
  unfold checkOptions at h
  rw [Utf8.length_encode] at h
  split at h
  · cases h
  · next hname =>
    split at h
    · cases h
    · next hpointer =>
      rw [countLimit_eq] at hpointer
      exact ⟨Nat.le_of_not_lt hname, by omega⟩

theorem storable_iff : Storable entries ↔ ∀ e ∈ entries,
    e.id.toNat ≤ 2 ^ 31 - 2 ∧ 1 ≤ e.offset.toNat ∧ e.offset.toNat ≤ 2 ^ 32 - 1 := by
  have hsize : UInt32.size = 2 ^ 32 := rfl
  refine forall₂_congr fun e _ => ?_
  rw [FitsSlot, countLimit_eq, hsize]
  omega

/-- What was packed is within the bounds, and its image is that of the layout. -/
theorem pack_eq_ok (himage : pack entries o = .ok image) :
    Packable entries o ∧ match o.format with
      | .packed => Packed.encode entries = image
      | .delta => Delta.fileBytes o.deltaHeader entries = image
      | .dense => ∃ slots, denseSlots entries = .ok slots
        ∧ Dense.fileBytes o.denseHeader slots = image := by
  unfold pack at himage
  cases hcheck : checkOptions o with
  | error e =>
    rw [hcheck] at himage
    cases himage
  | ok u =>
    rw [hcheck] at himage
    obtain ⟨hname, hpointer⟩ := fits_of_checkOptions hcheck
    cases hformat : o.format with
    | packed =>
      simp only [hformat, Except.ok.injEq] at himage
      exact ⟨⟨hname, hpointer, by simp [hformat], by simp [hformat]⟩, himage⟩
    | delta =>
      simp only [hformat] at himage
      split at himage
      · cases himage
      · next hcount =>
        rw [countLimit_eq] at hcount
        refine ⟨⟨hname, hpointer, fun _ => by omega, by simp [hformat]⟩, ?_⟩
        exact Except.ok.inj himage
    | dense =>
      simp only [hformat] at himage
      cases hslots : denseSlots entries with
      | error e =>
        rw [hslots] at himage
        cases himage
      | ok slots =>
        rw [hslots] at himage
        have hstorable := storable_iff.1 (storable_of_denseSlots hslots)
        exact ⟨⟨hname, hpointer, by simp [hformat], fun _ => hstorable⟩, slots, rfl,
          Except.ok.inj himage⟩

/-- Exactly what is within the bounds is packed. -/
theorem pack_isOk_iff : (∃ image, pack entries o = .ok image) ↔ Packable entries o := by
  constructor
  · rintro ⟨image, himage⟩
    exact (pack_eq_ok himage).1
  · rintro ⟨hname, hpointer, hdelta, hdense⟩
    unfold pack
    rw [checkOptions_of_fits hname hpointer]
    cases hformat : o.format with
    | packed => exact ⟨_, rfl⟩
    | delta =>
      have hcount : ¬ countLimit ≤ entries.length := by
        have := hdelta hformat
        rw [countLimit_eq]
        omega
      simp only [if_neg hcount]
      exact ⟨_, rfl⟩
    | dense =>
      obtain ⟨slots, hslots⟩ := denseSlots_isOk_iff.2 (storable_iff.2 (hdense hformat))
      simp only [hslots]
      exact ⟨_, rfl⟩

/-! ## Tables -/

theorem answers_ordered (h : t.entries = entries)
    (hsorted : entries.Pairwise fun a b => a.id < b.id) : (Table.ordered t).Answers entries where
  listed := h
  found e he := by
    subst h
    exact OrderedTable.find_of_mem hsorted he
  missing id hid := by
    cases hfind : t.find id with
    | none => exact hfind
    | some offset =>
      have hmem := OrderedTable.mem_of_find hfind
      rw [h] at hmem
      exact absurd rfl (hid _ hmem)

/-! ## Packed images -/

/-- The table of a packed image. -/
theorem table_encode {block : ByteArray} (hblock : octets block = Packed.encode entries)
    (hroom : Packed.headerSize + entries.length * Entry.size < addressSpace) :
    ∃ t, Packed.table block = .ok (.ordered t) ∧ t.entries = entries := by
  have hwritten : (Bytes.write Packed.headerSize entries.length).length = Packed.headerSize :=
    Bytes.length_write _ _
  have hfront : block.data.toList.take Packed.headerSize
      = Bytes.write Packed.headerSize entries.length := by
    rw [← octets, hblock, Packed.encode, List.take_left' hwritten]
  have hcount : entries.length < UInt64.size := by
    rw [Entry.size, addressSpace] at hroom
    omega
  have hread := Reader.u64_write hcount "entry count" [] 0
  rw [List.append_nil] at hread
  have hsize : block.size = Packed.headerSize + entries.length * Entry.size := by
    have hlength : (octets block).length = block.size := rfl
    rw [← hlength, hblock, Packed.encode, List.length_append, hwritten, length_tableBytes]
  have hinside : Packed.headerSize + entries.length * Entry.size ≤ block.size :=
    Nat.le_of_eq hsize.symm
  refine ⟨⟨⟨block, Packed.headerSize, entries.length, hinside⟩⟩, ?_, ?_⟩
  · rw [Packed.table, hfront, Reader.ofBytes, Attempt.on]
    have hread : Reader.u64 "entry count" ⟨0, Bytes.write Packed.headerSize entries.length⟩ = _ :=
      hread
    rw [hread]
    simp only [UInt64.toNat_ofNat_of_lt' hcount, Table.ofOrdered, OrderedTable.of, Span.of,
      if_neg (Nat.not_le.2 hroom), dif_pos hinside]
    rfl
  · exact OrderedTable.entries_eq_of_octets hblock hwritten.symm rfl

/-- A file with packed entries is their table, read in place. -/
theorem loadPacked_encode {path : Path} {h : Host} {f : File}
    (hfile : h.disk.file? path = some f) (hbytes : octets f.contents = Packed.encode entries)
    (hroom : Packed.headerSize + entries.length * Entry.size < addressSpace) :
    ∃ t, Store.loadPacked path h = (.ok ⟨.ofFile path f, .ordered t⟩, h) ∧ t.entries = entries := by
  obtain ⟨t, htable, ht⟩ := table_encode hbytes hroom
  refine ⟨t, ?_, ht⟩
  have htable : Packed.table (Region.ofFile path f).bytes = .ok (.ordered t) := htable
  rw [Store.loadPacked, Attempt.bind_of_ok (Region.mapFile_of_file? hfile),
    Attempt.ofExcept_bind htable]
  rfl

/-- A disk with nothing on it but a packed file. -/
def packedDisk (entries : List Entry) : Disk :=
  ⟨[(["a.bin"], .file ⟨⟨0⟩, ByteArray.mk (Packed.encode entries).toArray⟩)], [], 1⟩

theorem file_packedDisk (entries : List Entry) :
    (packedDisk entries).file? ⟨"a.bin"⟩
      = some ⟨⟨0⟩, ByteArray.mk (Packed.encode entries).toArray⟩ := by
  rw [Disk.file?, Disk.find_name (by decide) rfl rfl]
  rfl

/-! ## Delta images -/

theorem fits_deltaHeader (hname : o.name.utf8ByteSize ≤ 63)
    (hpointer : o.pointerSize.toNat ≤ 2 ^ 31 - 1) (hcount : entries.length ≤ 2 ^ 31 - 1) :
    (o.deltaHeader.counting entries).Fits := by
  refine ⟨?_, ?_, ?_⟩
  · rw [Delta.Header.counting, PackOptions.deltaHeader, Utf8.length_encode]
    exact hname
  · have hword : o.deltaHeader.pointerSize.toNat = o.pointerSize.toNat :=
      UInt32.toNat_toUInt64 _
    rw [Delta.Header.counting, hword, countLimit_eq]
    omega
  · have hcounting : (o.deltaHeader.counting entries).addressCount = entries.length := rfl
    rw [hcounting, countLimit_eq]
    omega

section

variable {header : Delta.Header}

theorem size_of_fits (hfits : (header.counting entries).Fits) :
    entries.length * Entry.size < addressSpace := by
  have hcount : entries.length < countLimit := hfits.2.2
  rw [countLimit_eq] at hcount
  rw [Entry.size, addressSpace, show UInt64.size = 2 ^ 64 from rfl]
  omega

theorem checkDelta_clipped (hfits : (header.counting entries).Fits) :
    Store.checkDelta header.version (header.counting entries).clipped = .ok () := by
  have hversion : (header.counting entries).clipped.version = header.version := rfl
  have hcount : (header.counting entries).clipped.addressCount = entries.length := rfl
  rw [Store.checkDelta, hversion, hcount, if_neg (by simp),
    if_neg (Nat.not_le.2 (size_of_fits hfits))]

/-- The block of the table that was packed is decoded from its records. -/
theorem decodeDelta_encodeRecords (header : Delta.Header)
    (hsorted : entries.Pairwise fun a b => a.id < b.id) (position : Nat) :
    Store.decodeDelta (header.counting entries).clipped
        ⟨position, Delta.encodeRecords header.pointerSize entries⟩ ()
      = .ok (tableBlock entries) := by
  have hrecords := Delta.decodeFrom_encodeFrom header.pointerSize entries 0 ⟨0, 0⟩ [] [] position
  rw [List.append_nil, List.reverse_nil, List.nil_append] at hrecords
  have hrun : Attempt.on ⟨position, Delta.encodeRecords header.pointerSize entries⟩
      (Delta.decodeRecords (header.counting entries).clipped.pointerSize
        (header.counting entries).clipped.addressCount) = _ := hrecords
  rw [Store.decodeDelta, hrun]
  simp only [Except.map, sortById_of_ascending hsorted]

theorem loadDelta_fileBytes (hfits : (header.counting entries).Fits)
    (hsorted : entries.Pairwise fun a b => a.id < b.id) (h : Host) :
    ∃ st t h', Store.loadDelta ((Delta.fileBytes header entries).drop 4) header.version .anonymous h
        = (.ok (st, (header.counting entries).clipped), h')
      ∧ st.table = .ordered t ∧ t.entries = entries := by
  have hpayload : (Delta.fileBytes header entries).drop 4
      = (header.counting entries).bytes ++ Delta.encodeRecords header.pointerSize entries := by
    rw [Delta.fileBytes, List.append_assoc, List.drop_left' (Bytes.length_write 4 2)]
  have hread := Delta.Header.read_bytes hfits (Delta.encodeRecords header.pointerSize entries) 0
  have hfit : Region.fitted ((header.counting entries).clipped.addressCount * Entry.size)
      (tableBlock entries) = tableBlock entries := if_pos (size_tableBlock entries)
  rw [hpayload, Store.loadDelta_of_header hread (checkDelta_clipped hfits), Attempt.bind_apply,
    Region.createOrAttach_anonymous, decodeDelta_encodeRecords header hsorted]
  simp only [hfit]
  rw [Store.finishDelta, Host.note_bind]
  have hcounted : (header.counting entries).clipped.addressCount = entries.length := rfl
  rw [Attempt.bind_apply, hcounted,
    Store.fillingOrdered_of_size (size_tableBlock entries) (size_of_fits hfits)]
  exact ⟨_, _, _, rfl, rfl, Store.entries_orderedOf rfl _⟩

end

/-! ## Dense images -/

theorem ofDenseRegion_fileBytes {header : Dense.Header} {slots : List UInt32} {r : Region}
    (hb : Dense.Holds r.bytes header slots) (hs : SlotsOf entries slots)
    (hsorted : entries.Pairwise fun a b => a.id < b.id) (h : Host) :
    ∃ st h', Store.ofDenseRegion r header.version h
        = (.ok (st, header.clipped slots.length), h') ∧ st.table.Answers entries := by
  obtain ⟨t, h', hload, hlength, hslot⟩ := hb.ofDenseRegion h
  have hanswers : (Table.dense t).Answers entries :=
    ⟨entries_of_slots hs hlength hslot hsorted, fun e he => find_listed hs hslot he,
      fun id hid => find_unlisted hs hslot hid⟩
  exact ⟨⟨r, .dense t⟩, h', hload, hanswers⟩

/-! ## All layouts -/

/-- What it means that an image loads back: the loader of its layout makes a table of the entries
that went in, and the header, if there is one, says what the options said. -/
def LoadsBack (image : List UInt8) (entries : List Entry) (o : PackOptions) : Prop :=
  match o.format with
  | .packed => ∀ path h f, h.disk.file? path = some f → octets f.contents = image →
      ∃ st h', Store.loadPacked path h = (.ok st, h') ∧ st.table.Answers entries
  | .delta => image.take 4 = Bytes.write 4 2 ∧ ∀ h, ∃ st header h',
      Store.loadDelta (image.drop 4) o.version .anonymous h = (.ok (st, header), h')
        ∧ st.table.Answers entries ∧ header.version = o.version
        ∧ header.pointerSize = o.pointerSize.toUInt64 ∧ header.name = Utf8.upToNul o.name
  | .dense => image.take 4 = Bytes.write 4 5 ∧ ∀ r h, octets r.bytes = image → ∃ st header h',
      Store.ofDenseRegion r o.version h = (.ok (st, header), h')
        ∧ st.table.Answers entries ∧ header.version = o.version
        ∧ header.pointerSize = o.pointerSize ∧ header.name = Utf8.upToNul o.name

theorem loadsBack_of_pack (hsorted : entries.Pairwise fun a b => a.id < b.id)
    (hroom : Packed.headerSize + entries.length * Entry.size < addressSpace)
    (himage : pack entries o = .ok image) : LoadsBack image entries o := by
  obtain ⟨⟨hname, hpointer, hdelta, hdense⟩, hlayout⟩ := pack_eq_ok himage
  unfold LoadsBack
  cases hformat : o.format with
  | packed =>
    simp only [hformat] at hlayout
    intro path h f hfile hbytes
    obtain ⟨t, hload, hentries⟩ := loadPacked_encode hfile (hbytes.trans hlayout.symm) hroom
    exact ⟨_, h, hload, answers_ordered hentries hsorted⟩
  | delta =>
    simp only [hformat] at hlayout
    subst hlayout
    refine ⟨?_, fun h => ?_⟩
    · rw [Delta.fileBytes, List.append_assoc, List.take_left' (Bytes.length_write 4 2)]
    · obtain ⟨st, t, h', hload, htable, hentries⟩ :=
        loadDelta_fileBytes (fits_deltaHeader hname hpointer (hdelta hformat)) hsorted h
      exact ⟨st, _, h', hload, htable ▸ answers_ordered hentries hsorted, rfl, rfl, rfl⟩
  | dense =>
    simp only [hformat] at hlayout
    obtain ⟨slots, hslots, hlayout⟩ := hlayout
    have hs := slotsOf_of_denseSlots hsorted hslots
    have htag : image.take 4 = Bytes.write 4 5 := by
      rw [← hlayout, Dense.fileBytes, Dense.Header.bytes]
      simp only [List.append_assoc]
      exact List.take_left' (Bytes.length_write 4 5)
    refine ⟨htag, fun r h hbytes => ?_⟩
    have hb : Dense.Holds r.bytes o.denseHeader slots := by
      refine ⟨hbytes.trans hlayout.symm, ?_, ?_, hs.counted⟩
      · rw [PackOptions.denseHeader, Utf8.length_encode]
        exact hname
      · have hword : o.denseHeader.pointerSize = o.pointerSize := rfl
        rw [hword, countLimit_eq]
        omega
    obtain ⟨st, h', hload, hanswers⟩ := ofDenseRegion_fileBytes hb hs hsorted h
    exact ⟨st, _, h', hload, hanswers, rfl, rfl, rfl⟩

/-- **Packing keeps the table, in every layout.** Entries ascending by identifier are packed exactly
if they and the options are within the bounds, and every image loads back. That a list of entries
has less than the address space of bytes is true of every list in memory. -/
theorem pack_loads_back (hsorted : entries.Pairwise fun a b => a.id < b.id)
    (hroom : Packed.headerSize + entries.length * Entry.size < addressSpace) (o : PackOptions) :
    ((∃ image, pack entries o = .ok image) ↔ Packable entries o)
      ∧ ∀ image, pack entries o = .ok image → LoadsBack image entries o :=
  ⟨pack_isOk_iff, fun _ himage => loadsBack_of_pack hsorted hroom himage⟩

theorem pack_loads_back_sample :
    ([⟨1, 16⟩, ⟨5, 7⟩] : List Entry).Pairwise (fun a b => a.id < b.id)
      ∧ Packed.headerSize + ([⟨1, 16⟩, ⟨5, 7⟩] : List Entry).length * Entry.size < addressSpace
      ∧ (∃ image, pack [⟨1, 16⟩, ⟨5, 7⟩] ⟨.dense, ⟨1, 0, 0, 0⟩, "m", 8⟩ = .ok image
        ∧ LoadsBack image [⟨1, 16⟩, ⟨5, 7⟩] ⟨.dense, ⟨1, 0, 0, 0⟩, "m", 8⟩) := by
  have hsorted : ([⟨1, 16⟩, ⟨5, 7⟩] : List Entry).Pairwise (fun a b => a.id < b.id) := by decide
  have hroom : Packed.headerSize + ([⟨1, 16⟩, ⟨5, 7⟩] : List Entry).length * Entry.size
      < addressSpace := by decide
  obtain ⟨hpacked, hloads⟩ :=
    pack_loads_back hsorted hroom ⟨.dense, ⟨1, 0, 0, 0⟩, "m", 8⟩
  obtain ⟨image, himage⟩ := hpacked.2 ⟨by decide, by decide, nofun, fun _ => by decide⟩
  exact ⟨hsorted, hroom, image, himage, hloads image himage⟩

end Packing

end OffsetAtlas
