/-
OffsetAtlas.Proofs.Delta.Shortest — no stream says the same in fewer bytes.

The writer asks for one mode after another and takes the first that serves. That it always ends with
a shortest one has two reasons. A field that does not wrap around says how far a number is from the
one before it, or how large it is, and the modes are asked for in the order of what they can say
(`Field.width_shortest_le`). And of the two ways to write an offset, in pointers or not, each is
shortest in its kind, and a product that does not wrap around gives its factor back, so that the
writer has looked at the very field that the stream has (`OffsetField.width_shortest_le`). Records
after the first are no different: what the writer carries on is the entry that the reader has just
made. So record by record the writer needs no more bytes, and neither does it for the whole
(`length_encodeRecords_le`).

Numbers that wrap around are another matter, since from zero the greatest number is one step down.
-/
import Mathlib.Algebra.GroupWithZero.Nat
import OffsetAtlas.Proofs.Delta.Delimited

namespace OffsetAtlas.Delta

/-! ## Fields -/

/-- The number that a payload makes of the one before, among all integers. -/
def Mode.unbounded (m : Mode) (base payload : Int) : Int :=
  match m with
  | .literal64 => payload
  | .increment => base + 1
  | .up8 => base + payload
  | .down8 => base - payload
  | .up16 => base + payload
  | .down16 => base - payload
  | .literal16 => payload
  | .literal32 => payload

namespace Field

variable {base value : UInt64} {w : Nat}

theorem two_le_width_literal (value : UInt64) : 2 ≤ (literal value).mode.width := by
  unfold literal
  split
  · exact Nat.le_refl 2
  · split <;> simp [Mode.width]

/-- A number by itself takes the least of the widths that hold it. -/
theorem width_literal_le (hw : w = 2 ∨ w = 4 ∨ w = 8) (h : value.toNat < Bytes.capacity w) :
    (literal value).mode.width ≤ w := by
  unfold literal
  rcases hw with rfl | rfl | rfl
  · rw [if_pos h]
    exact Nat.le_refl 2
  · rw [if_pos h]
    split <;> simp [Mode.width]
  · split
    · simp [Mode.width]
    · split <;> simp [Mode.width]

/-- A step up or down over some distance, or the number by itself if it is too far. -/
def stepped (narrow wide : Mode) (distance value : UInt64) : Field :=
  if distance.toNat < Bytes.capacity 1 then ⟨narrow, distance⟩
  else if distance.toNat < Bytes.capacity 2 then ⟨wide, distance⟩
  else literal value

theorem shortest_eq (base value : UInt64) :
    shortest base value =
      if value = base + 1 then ⟨.increment, 0⟩
      else if base ≤ value then stepped .up8 .up16 (value - base) value
      else stepped .down8 .down16 (base - value) value := rfl

section

variable {narrow wide : Mode} {distance : UInt64} (hnarrow : narrow.width = 1)
  (hwide : wide.width = 2)

include hnarrow hwide

theorem width_stepped_le_literal :
    (stepped narrow wide distance value).mode.width ≤ (literal value).mode.width := by
  have hliteral := two_le_width_literal value
  unfold stepped
  split
  · rw [hnarrow]
    exact Nat.le_of_succ_le hliteral
  · split
    · rw [hwide]
      exact hliteral
    · exact Nat.le_refl _

theorem width_stepped_le (hw : w = 1 ∨ w = 2) (h : distance.toNat < Bytes.capacity w) :
    (stepped narrow wide distance value).mode.width ≤ w := by
  unfold stepped
  rcases hw with rfl | rfl
  · rw [if_pos h]
    exact Nat.le_of_eq hnarrow
  · rw [if_pos h]
    split
    · rw [hnarrow]
      exact Nat.le_succ 1
    · exact Nat.le_of_eq hwide

end

/-- A number against the one before never takes more than the number by itself. -/
theorem width_shortest_le_literal (base value : UInt64) :
    (shortest base value).mode.width ≤ (literal value).mode.width := by
  rw [shortest_eq]
  split
  · exact Nat.zero_le _
  · split
    · exact width_stepped_le_literal rfl rfl
    · exact width_stepped_le_literal rfl rfl

/-- A step up or down takes as many bytes as hold it. -/
theorem width_shortest_le_of_step (hw : w = 1 ∨ w = 2) {payload : UInt64}
    (hroom : payload.toNat < Bytes.capacity w)
    (hstep : (value.toNat : Int) = base.toNat + payload.toNat
      ∨ (value.toNat : Int) = base.toNat - payload.toNat) :
    (shortest base value).mode.width ≤ w := by
  rw [shortest_eq]
  split
  · exact Nat.zero_le w
  · split
    · next hle =>
      have hup : (value - base).toNat = value.toNat - base.toNat :=
        UInt64.toNat_sub_of_le _ _ hle
      rw [UInt64.le_iff_toNat_le] at hle
      exact width_stepped_le rfl rfl hw (by omega)
    · next hgt =>
      have hdown : (base - value).toNat = base.toNat - value.toNat :=
        UInt64.toNat_sub_of_le _ _ (UInt64.le_of_lt (UInt64.not_le.1 hgt))
      rw [UInt64.le_iff_toNat_le] at hgt
      exact width_stepped_le rfl rfl hw (by omega)

theorem width_shortest_le_of_literal (hw : w = 2 ∨ w = 4 ∨ w = 8)
    (h : value.toNat < Bytes.capacity w) : (shortest base value).mode.width ≤ w :=
  Nat.le_trans (width_shortest_le_literal base value) (width_literal_le hw h)

/-- The machine computes the number that the field stands for. -/
def Unwrapped (f : Field) (base : UInt64) : Prop :=
  ((f.apply base).toNat : Int) = f.mode.unbounded base.toNat f.payload.toNat

/-- **No field is shorter than the shortest**, unless it wraps around. -/
theorem width_shortest_le {f : Field} (hroom : f.payload.toNat < Bytes.capacity f.mode.width)
    (hf : f.Unwrapped base) : (shortest base (f.apply base)).mode.width ≤ f.mode.width := by
  obtain ⟨mode, payload⟩ := f
  cases mode with
  | literal64 => exact width_shortest_le_of_literal (.inr (.inr rfl)) hroom
  | literal32 => exact width_shortest_le_of_literal (.inr (.inl rfl)) hroom
  | literal16 => exact width_shortest_le_of_literal (.inl rfl) hroom
  | increment =>
    show (shortest base (base + 1)).mode.width ≤ 0
    rw [shortest, if_pos rfl]
    exact Nat.le_refl 0
  | up8 => exact width_shortest_le_of_step (.inl rfl) hroom (.inl hf)
  | up16 => exact width_shortest_le_of_step (.inr rfl) hroom (.inl hf)
  | down8 => exact width_shortest_le_of_step (.inl rfl) hroom (.inr hf)
  | down16 => exact width_shortest_le_of_step (.inr rfl) hroom (.inr hf)

end Field

/-! ## Offsets -/

namespace OffsetField

variable {pointerSize before offset : UInt64}

/-- The machine computes the number of the field, and its product with the pointer size. -/
def Unwrapped (pointerSize : UInt64) (f : OffsetField) (before : UInt64) : Prop :=
  if f.scaled then
    f.field.Unwrapped (before / pointerSize)
      ∧ (f.field.apply (before / pointerSize) * pointerSize).toNat
        = (f.field.apply (before / pointerSize)).toNat * pointerSize.toNat
  else f.field.Unwrapped before

/-- A field that has room for its payload, and counts in pointers only if they have a size. -/
structure Stored (pointerSize : UInt64) (f : OffsetField) : Prop where
  room : f.field.payload.toNat < Bytes.capacity f.field.mode.width
  scalable : f.scaled = true → pointerSize ≠ 0

theorem width_shortest_le_plain (pointerSize before offset : UInt64) :
    (shortest pointerSize before offset).field.mode.width
      ≤ (Field.shortest before offset).mode.width := by
  simp only [shortest]
  split
  · next h => exact Nat.le_of_lt h.2.2
  · exact Nat.le_refl _

theorem width_shortest_le_scaled (before : UInt64) (hpos : 0 < pointerSize)
    (hmod : offset % pointerSize = 0) :
    (shortest pointerSize before offset).field.mode.width
      ≤ (Field.shortest (before / pointerSize) (offset / pointerSize)).mode.width := by
  simp only [shortest]
  split
  · exact Nat.le_refl _
  · next h => exact Nat.le_of_not_lt fun hlt => h ⟨hpos, hmod, hlt⟩

/-- A product that does not wrap around is a multiple, and gives its factor back. -/
theorem factor_of_product {n d : UInt64} (hd : 0 < d)
    (hproduct : (n * d).toNat = n.toNat * d.toNat) : n * d % d = 0 ∧ n * d / d = n := by
  have hpos : 0 < d.toNat := UInt64.lt_iff_toNat_lt.1 hd
  constructor
  · apply UInt64.toNat.inj
    rw [UInt64.toNat_mod, hproduct, Nat.mul_mod_left]
    rfl
  · apply UInt64.toNat.inj
    rw [UInt64.toNat_div, hproduct, Nat.mul_div_cancel _ hpos]

/-- **No offset field is shorter than the shortest**, in pointers or not, unless it wraps around. -/
theorem width_shortest_le {f : OffsetField} (hf : f.Stored pointerSize)
    (hun : f.Unwrapped pointerSize before) :
    (shortest pointerSize before (f.apply pointerSize before)).field.mode.width
      ≤ f.field.mode.width := by
  obtain ⟨scaled, field⟩ := f
  cases scaled with
  | false => exact Nat.le_trans (width_shortest_le_plain ..) (Field.width_shortest_le hf.room hun)
  | true =>
    obtain ⟨hfield, hproduct⟩ := hun
    have hpos : 0 < pointerSize := UInt64.pos_iff_ne_zero.2 (hf.scalable rfl)
    obtain ⟨hmod, hdiv⟩ := factor_of_product hpos hproduct
    have hscaled := width_shortest_le_scaled before hpos hmod
    rw [hdiv] at hscaled
    exact Nat.le_trans hscaled (Field.width_shortest_le hf.room hfield)

end OffsetField

/-! ## Records -/

namespace Record

variable {pointerSize : UInt64} {before : Entry} {r : Record}

/-- How many bytes a record takes. -/
def length (r : Record) : Nat :=
  1 + r.id.mode.width + r.offset.field.mode.width

/-- None of what is computed for a record wraps around. -/
structure Unwrapped (pointerSize : UInt64) (before : Entry) (r : Record) : Prop where
  id : r.id.Unwrapped before.id
  offset : r.offset.Unwrapped pointerSize before.offset

/-- A record as it comes from bytes. -/
structure Stored (pointerSize : UInt64) (r : Record) : Prop where
  id : r.id.payload.toNat < Bytes.capacity r.id.mode.width
  offset : r.offset.Stored pointerSize

theorem length_encodeRecord_le (hr : r.Stored pointerSize) (hun : r.Unwrapped pointerSize before) :
    (encodeRecord pointerSize before (r.entry pointerSize before)).length ≤ r.length := by
  have hid := Field.width_shortest_le hr.id hun.id
  have hoffset := OffsetField.width_shortest_le hr.offset hun.offset
  simp only [encodeRecord, entry, List.length_cons, List.length_append, Field.length_bytes, length]
  omega

end Record

/-- None of what is computed along a stream wraps around. -/
def UnwrappedAfter (pointerSize : UInt64) : (before : Entry) → List Record → Prop
  | _, [] => True
  | before, r :: rs =>
    r.Unwrapped pointerSize before ∧ UnwrappedAfter pointerSize (r.entry pointerSize before) rs

/-- The writer needs no more bytes than the records that it is told the entries of. -/
theorem length_encodeFrom_le {pointerSize : UInt64} {before : Entry} {rs : List Record}
    (hrs : ∀ r ∈ rs, r.Stored pointerSize) (hun : UnwrappedAfter pointerSize before rs) :
    (encodeFrom pointerSize before (entriesAfter pointerSize before rs)).length
      ≤ (rs.map Record.length).sum := by
  induction rs generalizing before with
  | nil => exact Nat.le_refl 0
  | cons r rs ih =>
    obtain ⟨hr, hrs⟩ := List.forall_mem_cons.1 hrs
    have hfirst := Record.length_encodeRecord_le hr hun.1
    have hothers := ih hrs hun.2
    simp only [entriesAfter, encodeFrom, List.length_append, List.map_cons, List.sum_cons]
    omega

/-! ## Streams -/

section

variable {pointerSize : UInt64} {code high count record : Nat} {control : UInt8} {r t : Reader}

theorem stored_of_readField {f : Field} (h : readField code control record r = (.ok f, t)) :
    f.payload.toNat < Bytes.capacity f.mode.width ∧ t.position = r.position + f.mode.width := by
  rw [readField] at h
  cases hmode : Mode.ofCode? code with
  | none =>
    rw [hmode] at h
    cases h
  | some mode =>
    rw [hmode] at h
    obtain ⟨n, hword, rfl⟩ := Attempt.map_eq_ok.1 h
    obtain ⟨-, hroom, rfl⟩ := Reader.word_of_ok hword
    refine ⟨?_, rfl⟩
    have hn : n < UInt64.size := Nat.lt_of_lt_of_le hroom (by cases mode <;> decide)
    simpa [UInt64.toNat_ofNat_of_lt' hn] using hroom

theorem stored_of_readOffset {f : OffsetField}
    (h : readOffset pointerSize high control record r = (.ok f, t)) :
    f.Stored pointerSize ∧ t.position = r.position + f.field.mode.width := by
  rw [readOffset] at h
  split at h
  · split at h
    · cases h
    · next hne =>
      obtain ⟨field, hfield, rfl⟩ := Attempt.map_eq_ok.1 h
      obtain ⟨hroom, hposition⟩ := stored_of_readField hfield
      exact ⟨⟨hroom, fun _ => hne⟩, hposition⟩
  · obtain ⟨field, hfield, rfl⟩ := Attempt.map_eq_ok.1 h
    obtain ⟨hroom, hposition⟩ := stored_of_readField hfield
    exact ⟨⟨hroom, fun hscaled => absurd hscaled Bool.false_ne_true⟩, hposition⟩

theorem stored_of_readRecord {x : Record} (h : readRecord pointerSize record r = (.ok x, t)) :
    x.Stored pointerSize ∧ t.position = r.position + x.length := by
  obtain ⟨control, r₁, hcontrol, h⟩ := Attempt.bind_eq_ok.1 h
  obtain ⟨id, r₂, hid, h⟩ := Attempt.bind_eq_ok.1 h
  obtain ⟨offset, r₃, hoffset, h⟩ := Attempt.bind_eq_ok.1 h
  cases h
  obtain ⟨n, hword, -⟩ := Attempt.map_eq_ok.1 hcontrol
  obtain ⟨-, -, rfl⟩ := Reader.word_of_ok hword
  obtain ⟨hidRoom, h₂⟩ := stored_of_readField hid
  obtain ⟨hoffsetStored, h₃⟩ := stored_of_readOffset hoffset
  refine ⟨⟨hidRoom, hoffsetStored⟩, ?_⟩
  simp only [h₃, h₂, Record.length]
  omega

theorem stored_of_readRecords {rs : List Record}
    (h : readRecords pointerSize count record r = (.ok rs, t)) :
    (∀ x ∈ rs, x.Stored pointerSize) ∧ t.position = r.position + (rs.map Record.length).sum := by
  induction count generalizing record rs r with
  | zero =>
    cases h
    exact ⟨by simp, rfl⟩
  | succ count ih =>
    obtain ⟨first, r₁, hfirst, h⟩ := Attempt.bind_eq_ok.1 h
    obtain ⟨others, r₂, hothers, h⟩ := Attempt.bind_eq_ok.1 h
    cases h
    obtain ⟨hstored, h₁⟩ := stored_of_readRecord hfirst
    obtain ⟨hall, h₂⟩ := ih hothers
    refine ⟨List.forall_mem_cons.2 ⟨hstored, hall⟩, ?_⟩
    rw [h₂, h₁, List.map_cons, List.sum_cons, Nat.add_assoc]

end

/-- The records in front of these bytes are read without a sum, a difference or a product that wraps
around. -/
def Unwrapped (pointerSize : UInt64) (count : Nat) (bytes : List UInt8) : Prop :=
  ∃ rs r, Attempt.on (.ofBytes bytes) (readRecords pointerSize count 0) = (.ok rs, r)
    ∧ UnwrappedAfter pointerSize ⟨0, 0⟩ rs

/-- **Streams are written as short as they can be.** Whatever bytes are decoded as these entries,
all of them and with nothing wrapping around, the bytes that are written for the entries are no
more. -/
theorem length_encodeRecords_le {pointerSize : UInt64} {entries : List Entry} {bytes : List UInt8}
    {r : Reader}
    (h : Attempt.on (.ofBytes bytes) (decodeRecords pointerSize entries.length) = (.ok entries, r))
    (hall : r.unread = []) (hun : Unwrapped pointerSize entries.length bytes) :
    (encodeRecords pointerSize entries).length ≤ bytes.length := by
  obtain ⟨rs, hread, hentries⟩ := decodeRecords_eq_ok.1 h
  obtain ⟨rs', r', hread', hun⟩ := hun
  obtain ⟨rfl, rfl⟩ : rs = rs' ∧ r = r' := by
    cases hread.symm.trans hread'
    exact ⟨rfl, rfl⟩
  obtain ⟨hstored, hposition⟩ := stored_of_readRecords hread
  have hlength : r.position = bytes.length := by
    obtain ⟨taken, hbytes, htaken, -⟩ := delimited_decodeRecords _ _ _ _ _ h
    rw [hall, List.append_nil] at hbytes
    have hbytes : bytes = taken := hbytes
    rw [htaken, hbytes]
    exact Nat.zero_add _
  calc (encodeRecords pointerSize entries).length
      = (encodeFrom pointerSize ⟨0, 0⟩ (entriesAfter pointerSize ⟨0, 0⟩ rs)).length := by
        rw [hentries, encodeRecords]
    _ ≤ (rs.map Record.length).sum := length_encodeFrom_le hstored hun
    _ = bytes.length := by
        rw [← hlength, hposition]
        exact (Nat.zero_add _).symm

/-- Two records that spend more bytes than they need: both step over two bytes' worth in their
identifiers. -/
def wasteful : List UInt8 :=
  [0xC4, 1, 0, 0, 0x20, 0x94, 2, 0]

theorem length_encodeRecords_le_wasteful :
    Attempt.on (.ofBytes wasteful) (decodeRecords 8 2)
        = (.ok [⟨1, 0x10000⟩, ⟨3, 0x10008⟩], ⟨8, []⟩)
      ∧ Unwrapped 8 2 wasteful
      ∧ encodeRecords 8 [⟨1, 0x10000⟩, ⟨3, 0x10008⟩] = [0xC1, 0, 0x20, 0x92, 2]
      ∧ (encodeRecords 8 [⟨1, 0x10000⟩, ⟨3, 0x10008⟩]).length ≤ wasteful.length := by
  have hrun : Attempt.on (.ofBytes wasteful) (decodeRecords 8 2)
      = (.ok [⟨1, 0x10000⟩, ⟨3, 0x10008⟩], ⟨8, []⟩) := rfl
  have hun : Unwrapped 8 2 wasteful := by
    refine ⟨[⟨⟨.up16, 1⟩, true, ⟨.up16, 0x2000⟩⟩, ⟨⟨.up16, 2⟩, true, ⟨.increment, 0⟩⟩], ⟨8, []⟩,
      rfl, ?_⟩
    exact ⟨⟨rfl, rfl, rfl⟩, ⟨rfl, rfl, rfl⟩, trivial⟩
  exact ⟨hrun, hun, rfl, length_encodeRecords_le hrun rfl hun⟩

/-- Where a difference wraps around, two bytes say what the writer needs nine for. -/
example : (Attempt.on (.ofBytes [0x31, 1]) (decodeRecords 8 1)).1
      = .ok [⟨1, 0xFFFFFFFFFFFFFFFF⟩]
    ∧ (encodeRecords 8 [⟨1, 0xFFFFFFFFFFFFFFFF⟩]).length = 9 :=
  ⟨rfl, rfl⟩

end OffsetAtlas.Delta
