/-
OffsetAtlas.Proofs.Packing.Checked — packing in steps that can fail.

The writers of the three layouts do their arithmetic without asking and leave out a slot that is not
there. Here they are written out once more with everything in them that can go wrong: a name copied
into a field of its header, a number that a signed word has to hold, a difference, a division by the
pointer size, a slot that is written by its number. Where such a step fails there is no answer at
all, not even a refusal.

The limits are asked for in one place and needed in another. `pack` looks at the name, the pointer
size and the number of entries, each in its own way, and `denseSlots` looks at the greatest
identifier only; the steps need the name to leave room for a closing NUL, the counts to be signed
words, and every identifier to be the number of a slot. That the first imply the second, for entries
in any order and repeated at will, is `checkedPack_eq`. The room that is set aside for the bytes is
left out; it is a matter of memory.
-/
import OffsetAtlas.Proofs.Delta.Shortest
import OffsetAtlas.Proofs.Packing.RoundTrip
import OffsetAtlas.Proofs.Table.Checked

namespace OffsetAtlas

open Text

/-! ## Steps -/

namespace Checked

/-- The stored form of a count, which is a word with a sign. -/
def count (n : Nat) : Option (List UInt8) :=
  if n < countLimit then some (Bytes.write 4 n) else none

/-- Bytes copied to the front of a field of zeros. -/
def field (width : Nat) (bs : List UInt8) : Option (List UInt8) :=
  if bs.length ≤ width then some (bs ++ List.replicate (width - bs.length) 0) else none

/-- A quotient by something other than zero. -/
def quotient (a b : UInt64) : Option UInt64 :=
  if b = 0 then none else some (a / b)

/-- The remainder of such a division. -/
def remainder (a b : UInt64) : Option UInt64 :=
  if b = 0 then none else some (a % b)

/-- The table with another value at a place that it has. -/
def set {α : Type} (table : Array α) (place : Nat) (a : α) : Option (Array α) :=
  if h : place < table.size then some (table.set place a h) else none

variable {n : Nat} {a b : UInt64}

theorem count_of_lt (h : n < countLimit) : count n = some (Bytes.write 4 n) :=
  if_pos h

theorem count_of_le (h : countLimit ≤ n) : count n = none :=
  if_neg (Nat.not_lt.2 h)

theorem quotient_of_ne (h : b ≠ 0) : quotient a b = some (a / b) :=
  if_neg h

theorem remainder_of_ne (h : b ≠ 0) : remainder a b = some (a % b) :=
  if_neg h

theorem sub_of_lt {m n : Nat} (h : m < n) : sub m n = none :=
  if_neg (Nat.not_le.2 h)

theorem set_of_lt {α : Type} {table : Array α} {place : Nat} (h : place < table.size) (a : α) :
    set table place a = some (table.setIfInBounds place a) := by
  rw [set, dif_pos h, Array.setIfInBounds, dif_pos h]

end Checked

/-! ## Delta files -/

namespace Delta

/-- The header behind the tag. -/
def Header.checkedBytes (h : Header) : Option (List UInt8) :=
  let name := Utf8.encode h.name
  if name.length ≤ maxNameLength then do
    let pointerSize ← Checked.count h.pointerSize.toNat
    let addressCount ← Checked.count h.addressCount
    return h.version.components.flatMap (fun c => Bytes.write 4 c.toNat)
      ++ Bytes.write 4 name.length ++ name ++ pointerSize ++ addressCount
  else none

/-- The steps of writing a header hold exactly for a header that fits. -/
theorem Header.checkedBytes_eq (h : Header) : h.checkedBytes = h.write? := by
  by_cases hname : (Utf8.encode h.name).length ≤ maxNameLength
  · rw [checkedBytes, if_pos hname]
    rcases Nat.lt_or_ge h.pointerSize.toNat countLimit with hpointer | hpointer
    · rcases Nat.lt_or_ge h.addressCount countLimit with hcount | hcount
      · rw [Checked.count_of_lt hpointer, Checked.count_of_lt hcount, write?,
          if_pos ⟨hname, hpointer, hcount⟩]
        rfl
      · rw [Checked.count_of_lt hpointer, Checked.count_of_le hcount, write?,
          if_neg fun hfits => Nat.not_lt.2 hcount hfits.2.2]
        rfl
    · rw [Checked.count_of_le hpointer, write?,
        if_neg fun hfits => Nat.not_lt.2 hpointer hfits.2.1]
      rfl
  · rw [checkedBytes, if_neg hname, write?, if_neg fun hfits => hname hfits.1]

/-- A number against the one before it. Up is tried first, and down is taken if that fails. -/
def Field.checkedShortest (base value : UInt64) : Option Field :=
  if value = base + 1 then some ⟨.increment, 0⟩
  else
    match Checked.sub value.toNat base.toNat with
    | some up => some (stepped .up8 .up16 (UInt64.ofNat up) value)
    | none => (Checked.sub base.toNat value.toNat).map fun down =>
      stepped .down8 .down16 (UInt64.ofNat down) value

theorem Field.checkedShortest_eq (base value : UInt64) :
    checkedShortest base value = some (shortest base value) := by
  rw [checkedShortest, shortest_eq]
  split
  · rfl
  · by_cases hup : base ≤ value
    · simp only [Checked.sub_of_le (UInt64.le_iff_toNat_le.1 hup), if_pos hup,
        Checked.ofNat_sub hup]
    · have hdown : value < base := UInt64.not_le.1 hup
      simp only [Checked.sub_of_lt (UInt64.lt_iff_toNat_lt.1 hdown), if_neg hup, Option.map_some,
        Checked.sub_of_le (UInt64.le_iff_toNat_le.1 (UInt64.le_of_lt hdown)),
        Checked.ofNat_sub (UInt64.le_of_lt hdown)]

/-- An offset against the one before. There is a division only where the pointer size is not zero.
-/
def OffsetField.checkedShortest (pointerSize base offset : UInt64) : Option OffsetField := do
  let plain ← Field.checkedShortest base offset
  if 0 < pointerSize then
    if (← Checked.remainder offset pointerSize) = 0 then
      let scaled ← Field.checkedShortest (← Checked.quotient base pointerSize)
        (← Checked.quotient offset pointerSize)
      return if scaled.mode.width < plain.mode.width then ⟨true, scaled⟩ else ⟨false, plain⟩
    else return ⟨false, plain⟩
  else return ⟨false, plain⟩

theorem OffsetField.checkedShortest_eq (pointerSize base offset : UInt64) :
    checkedShortest pointerSize base offset = some (shortest pointerSize base offset) := by
  simp only [checkedShortest, Field.checkedShortest_eq, Option.bind_eq_bind, Option.bind_some]
  by_cases hpositive : 0 < pointerSize
  · have hne : pointerSize ≠ 0 := (UInt64.ne_of_lt hpositive).symm
    simp only [if_pos hpositive, Checked.remainder_of_ne hne, Checked.quotient_of_ne hne,
      Option.bind_some]
    by_cases hmultiple : offset % pointerSize = 0
    · simp only [shortest, hpositive, hmultiple, true_and]
      rfl
    · simp only [shortest, hmultiple, false_and, and_false, if_false]
      rfl
  · simp only [shortest, hpositive, false_and, if_false]
    rfl

/-- The record of an entry that follows `before`. -/
def checkedRecord (pointerSize : UInt64) (before entry : Entry) : Option (List UInt8) := do
  let id ← Field.checkedShortest before.id entry.id
  let offset ← OffsetField.checkedShortest pointerSize before.offset entry.offset
  return control id offset :: (id.bytes ++ offset.field.bytes)

theorem checkedRecord_eq (pointerSize : UInt64) (before entry : Entry) :
    checkedRecord pointerSize before entry = some (encodeRecord pointerSize before entry) := by
  rw [checkedRecord, Field.checkedShortest_eq, OffsetField.checkedShortest_eq]
  rfl

/-- The records of entries that follow `before`. -/
def checkedRecords (pointerSize : UInt64) (before : Entry) : List Entry → Option (List UInt8)
  | [] => some []
  | e :: es => do
    let first ← checkedRecord pointerSize before e
    let others ← checkedRecords pointerSize e es
    return first ++ others

theorem checkedRecords_eq (pointerSize : UInt64) (before : Entry) (entries : List Entry) :
    checkedRecords pointerSize before entries = some (encodeFrom pointerSize before entries) := by
  induction entries generalizing before with
  | nil => rfl
  | cons e es ih =>
    rw [checkedRecords, checkedRecord_eq, ih]
    rfl

/-- A whole file with these entries. -/
def checkedFile (h : Header) (entries : List Entry) : Option (List UInt8) := do
  let header ← (h.counting entries).checkedBytes
  let records ← checkedRecords h.pointerSize ⟨0, 0⟩ entries
  return Bytes.write 4 2 ++ header ++ records

theorem checkedFile_eq (h : Header) (entries : List Entry) :
    checkedFile h entries = encodeFile? h entries := by
  rw [checkedFile, Header.checkedBytes_eq, checkedRecords_eq, Header.write?, encodeFile?]
  split
  · rfl
  · rfl

end Delta

/-! ## Dense files -/

namespace Dense

/-- A whole file with these slots. -/
def checkedFile (h : Header) (slots : List UInt32) : Option (List UInt8) :=
  let name := Utf8.encode h.name
  if name.length < nameField then do
    let field ← Checked.field nameField name
    let count ← Checked.count slots.length
    return Bytes.write 4 5 ++ h.version.components.flatMap (fun c => Bytes.write 4 c.toNat)
      ++ field ++ Bytes.ofUInt32 h.pointerSize ++ Bytes.ofUInt32 h.dataFormat.toUInt32 ++ count
      ++ slots.flatMap Bytes.ofUInt32
  else none

/-- The steps hold exactly for a name and for slots that have room. -/
theorem checkedFile_eq (h : Header) (slots : List UInt32) :
    checkedFile h slots = encode? h slots := by
  by_cases hname : (Utf8.encode h.name).length < nameField
  · rw [checkedFile, if_pos hname, Checked.field, if_pos (Nat.le_of_lt hname)]
    rcases Nat.lt_or_ge slots.length countLimit with hcount | hcount
    · rw [Checked.count_of_lt hcount, encode?, if_pos ⟨hname, hcount⟩]
      rfl
    · rw [Checked.count_of_le hcount, encode?,
        if_neg fun hroom => Nat.not_lt.2 hcount hroom.2]
      rfl
  · rw [checkedFile, if_neg hname, encode?, if_neg fun hroom => hname hroom.1]

end Dense

namespace Packing

variable {entries : List Entry} {slots : List UInt32} {o : PackOptions} {image : List UInt8}

/-! ## Slots -/

/-- Writes the slots of the entries one after another, up to the first entry that has none. -/
def checkedFill (table : Array UInt32) : List Entry → Option (Except Failure (Array UInt32))
  | [] => some (.ok table)
  | e :: es =>
    match slotOf e with
    | .error failure => some (.error failure)
    | .ok offset => do
      let filled ← Checked.set table e.id.toNat offset
      checkedFill filled es

/-- The slots up to the greatest identifier. -/
def checkedSlots (entries : List Entry) : Option (Except Failure (List UInt32)) :=
  match (entries.map Entry.id).max? with
  | none => some (.ok [])
  | some last =>
    if countLimit ≤ last.toNat + 1 then some (.error (.malformedHeader (.idTooLarge last)))
    else (checkedFill (Array.replicate (last.toNat + 1) 0) entries).map (·.map Array.toList)

/-- Where every identifier is the number of a slot, no slot is written that is not there. An entry
without a slot ends the writing, and it does not matter what the table holds by then. -/
theorem checkedFill_eq {table : Array UInt32} (h : ∀ e ∈ entries, e.id.toNat < table.size) :
    checkedFill table entries = some ((entries.mapM slotOf).map fun slots =>
      (entries.zip slots).foldl (fun (table : Array UInt32) pair =>
        table.setIfInBounds pair.1.id.toNat pair.2) table) := by
  induction entries generalizing table with
  | nil => rfl
  | cons e es ih =>
    rw [checkedFill, List.mapM_cons]
    cases slotOf e with
    | error failure => rfl
    | ok offset =>
      have hrest : ∀ x ∈ es, x.id.toNat < (table.setIfInBounds e.id.toNat offset).size := by
        intro x hx
        rw [Array.size_setIfInBounds]
        exact h x (List.mem_cons_of_mem e hx)
      simp only [Checked.set_of_lt (h e List.mem_cons_self), Option.bind_eq_bind, Option.bind_some,
        ih hrest]
      cases es.mapM slotOf with
      | error failure => rfl
      | ok slots => rfl

/-- The greatest identifier bounds all of them, whatever their order. -/
theorem checkedSlots_eq (entries : List Entry) :
    checkedSlots entries = some (denseSlots entries) := by
  rw [checkedSlots, denseSlots]
  cases hmax : (entries.map Entry.id).max? with
  | none => rfl
  | some last =>
    obtain ⟨-, hle⟩ := List.max?_eq_some_iff.1 hmax
    have hroom : ∀ e ∈ entries,
        e.id.toNat < (Array.replicate (last.toNat + 1) (0 : UInt32)).size := by
      intro e he
      rw [Array.size_replicate]
      exact Nat.lt_succ_of_le (UInt64.le_iff_toNat_le.1 (hle _ (List.mem_map_of_mem he)))
    simp only
    split
    · rfl
    · rw [checkedFill_eq hroom]
      cases entries.mapM slotOf with
      | error failure => rfl
      | ok slots => rfl

/-- Slots with room for every entry, each with the offset of the last entry that it is for. -/
structure LastInSlots (entries : List Entry) (slots : List UInt32) : Prop where
  counted : slots.length < countLimit
  inside : ∀ e ∈ entries, e.id.toNat < slots.length
  slot : ∀ (id : UInt64) (h : id.toNat < slots.length),
    slots[id.toNat].toNat = (lastOf entries id).elim 0 (·.offset.toNat)

theorem lastInSlots_of_denseSlots (hslots : denseSlots entries = .ok slots) :
    LastInSlots entries slots := by
  have hstorable := storable_of_denseSlots hslots
  obtain ⟨count, hcount, hinside, htable⟩ := denseSlots_of_storable hstorable
  obtain rfl := Except.ok.inj (htable.symm.trans hslots)
  have hlength : (slotTable entries count).toList.length = count := size_slotTable entries count
  refine ⟨Nat.lt_of_le_of_lt (Nat.le_of_eq hlength) hcount,
    fun e he => Nat.lt_of_lt_of_eq (hinside e he) hlength.symm, fun id hid => ?_⟩
  have hroom : id.toNat < count := Nat.lt_of_lt_of_eq hid hlength
  have hslot : (slotTable entries count).toList[id.toNat]?
      = ((lastOf entries id).map (·.offset.toUInt32)).or (some 0) := by
    rw [Array.getElem?_toList, slotTable, getElem?_foldl (by simpa using hroom),
      Array.getElem?_replicate, if_pos hroom]
  rw [List.getElem?_eq_getElem hid] at hslot
  rw [Option.some.inj (hslot.trans (Option.or_some ..))]
  cases hlast : lastOf entries id with
  | none => rfl
  | some e =>
    have hfits := (hstorable e (mem_of_lastOf hlast).1).2
    exact (UInt64.toNat_toUInt32 e.offset).trans (Nat.mod_eq_of_lt hfits.2)

/-! ## All layouts -/

/-- The bytes of a file with these entries. -/
def checkedPack (entries : List Entry) (o : PackOptions) : Option (Except Failure (List UInt8)) :=
  match checkOptions o with
  | .error e => some (.error e)
  | .ok () =>
    match o.format with
    | .packed => some (.ok (Packed.encode entries))
    | .delta =>
      if countLimit ≤ entries.length then
        some (.error (.malformedHeader (.tooManyEntries entries.length)))
      else (Delta.checkedFile o.deltaHeader entries).map .ok
    | .dense => do
      match ← checkedSlots entries with
      | .error e => return .error e
      | .ok slots => (Dense.checkedFile o.denseHeader slots).map .ok

/-- Options and entries that `pack` lets through have room in the header of a delta file. -/
theorem checkedFile_delta (hcheck : checkOptions o = .ok ())
    (hcount : entries.length < countLimit) :
    Delta.checkedFile o.deltaHeader entries = some (Delta.fileBytes o.deltaHeader entries) := by
  obtain ⟨hname, hpointer⟩ := fits_of_checkOptions hcheck
  rw [Delta.checkedFile_eq, Delta.encodeFile?,
    if_pos (fits_deltaHeader hname hpointer (Nat.le_of_lt_succ hcount))]

/-- They have room in the header of a dense file, with a byte to spare behind the name. -/
theorem checkedFile_dense (hcheck : checkOptions o = .ok ())
    (hslots : denseSlots entries = .ok slots) :
    Dense.checkedFile o.denseHeader slots = some (Dense.fileBytes o.denseHeader slots) := by
  obtain ⟨hname, -⟩ := fits_of_checkOptions hcheck
  have hfield : (Utf8.encode o.denseHeader.name).length < Dense.nameField := by
    rw [Utf8.length_encode]
    exact Nat.lt_succ_of_le hname
  rw [Dense.checkedFile_eq, Dense.encode?,
    if_pos ⟨hfield, (lastInSlots_of_denseSlots hslots).counted⟩]

theorem checkedPack_eq (entries : List Entry) (o : PackOptions) :
    checkedPack entries o = some (pack entries o) := by
  rw [checkedPack, pack]
  cases hcheck : checkOptions o with
  | error e => rfl
  | ok =>
    cases o.format with
    | packed => rfl
    | delta =>
      simp only
      split
      · rfl
      · next hcount =>
        rw [checkedFile_delta hcheck (Nat.lt_of_not_le hcount)]
        rfl
    | dense =>
      simp only [checkedSlots_eq, Option.bind_eq_bind, Option.bind_some]
      cases hslots : denseSlots entries with
      | error e => rfl
      | ok slots =>
        simp only [checkedFile_dense hcheck hslots]
        rfl

/-- **Packing never gets stuck.** Whatever the entries and the options are, every step on the way to
the image or to the refusal holds. In a dense image there is a slot for each of the entries, and the
slot of an identifier has the offset of its last entry. -/
theorem pack_in_bounds (entries : List Entry) (o : PackOptions) :
    checkedPack entries o = some (pack entries o)
      ∧ ∀ image, o.format = .dense → pack entries o = .ok image → ∃ slots,
        denseSlots entries = .ok slots ∧ Dense.fileBytes o.denseHeader slots = image
          ∧ LastInSlots entries slots
          ∧ ∀ (i : Nat) (h : i < slots.length),
            (image.drop (Dense.headerSize + i * slotSize)).take slotSize
              = Bytes.ofUInt32 slots[i] := by
  refine ⟨checkedPack_eq entries o, fun image hformat himage => ?_⟩
  obtain ⟨⟨hname, -, -, -⟩, hlayout⟩ := pack_eq_ok himage
  simp only [hformat] at hlayout
  obtain ⟨slots, hslots, rfl⟩ := hlayout
  have hfield : (Utf8.encode o.denseHeader.name).length ≤ maxNameLength := by
    rw [Utf8.length_encode]
    exact hname
  exact ⟨slots, hslots, rfl, lastInSlots_of_denseSlots hslots,
    fun i hi => Dense.slot_fileBytes hfield hi⟩

/-- Entries out of order, two of them for one identifier. -/
def unsortedEntries : List Entry :=
  [⟨2, 7⟩, ⟨0, 5⟩, ⟨2, 9⟩]

theorem pack_in_bounds_unsorted :
    ∃ image, pack unsortedEntries ⟨.dense, ⟨1, 0, 0, 0⟩, "m", 8⟩ = .ok image
      ∧ checkedPack unsortedEntries ⟨.dense, ⟨1, 0, 0, 0⟩, "m", 8⟩ = some (.ok image)
      ∧ (image.drop 104).take 4 = [9, 0, 0, 0] := by
  obtain ⟨image, himage⟩ := pack_isOk_iff.2
    (⟨by decide, by decide, nofun, fun _ => by decide⟩ :
      Packable unsortedEntries ⟨.dense, ⟨1, 0, 0, 0⟩, "m", 8⟩)
  obtain ⟨hsteps, hslots⟩ := pack_in_bounds unsortedEntries ⟨.dense, ⟨1, 0, 0, 0⟩, "m", 8⟩
  obtain ⟨slots, -, -, hlast, hbytes⟩ := hslots image rfl himage
  have hroom : (2 : UInt64).toNat < slots.length := hlast.inside ⟨2, 9⟩ (by decide)
  have hslot : slots[(2 : UInt64).toNat] = 9 := UInt32.toNat_inj.1 (hlast.slot 2 hroom)
  refine ⟨image, himage, hsteps.trans (congrArg some himage), ?_⟩
  have hplace := hbytes _ hroom
  rw [hslot] at hplace
  exact hplace

end Packing

end OffsetAtlas
