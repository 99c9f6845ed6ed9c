/-
OffsetAtlas.Proofs.Dense.Image — which dense images read back, and what becomes of the others.

A header is written if its name has room in the name's field and the slots can be counted. The
pointer size is not asked: it is a word without a sign, and the reader expects one with a sign
there. So an image reads back, whatever follows it, exactly if the sign bit of the pointer size is
clear; with the bit set the header is refused for a negative pointer size (`encode?_reads_back`).
-/
import Mathlib.Algebra.Group.Nat.Defs
import OffsetAtlas.Database.Load
import OffsetAtlas.Proofs.Dense.RoundTrip

namespace OffsetAtlas.Dense

open Text

variable {h : Header} {slots : List UInt32} {image : List UInt8} {r : Region}

/-- Only a name and slots that have room are written. -/
theorem encode?_eq_some (himage : encode? h slots = some image) :
    fileBytes h slots = image ∧ (Utf8.encode h.name).length ≤ maxNameLength
      ∧ slots.length < countLimit := by
  rw [encode?, Option.ite_none_right_eq_some] at himage
  obtain ⟨⟨hname, hcount⟩, himage⟩ := himage
  exact ⟨Option.some.inj himage, Nat.le_of_lt_succ hname, hcount⟩

/-- Nothing is written for a name or for slots that have no room. -/
theorem encode?_eq_none_iff :
    encode? h slots = none ↔ 63 < h.name.utf8ByteSize ∨ 2 ^ 31 - 1 < slots.length := by
  have hfield : nameField = 64 := rfl
  have hlimit : countLimit = 2 ^ 31 := rfl
  rw [encode?, Utf8.length_encode, hfield, hlimit]
  split
  · next hroom =>
    constructor
    · exact nofun
    · intro hlarge
      omega
  · next hlarge =>
    constructor
    · intro _
      omega
    · intro _
      rfl

/-! ## Regions -/

/-- A region that holds a file makes a table of its slots. -/
theorem Holds.ofDenseRegion (hb : Holds r.bytes h slots) (host : Host) :
    ∃ t host', Store.ofDenseRegion r h.version host
        = (.ok (⟨r, .dense t⟩, h.clipped slots.length), host')
      ∧ t.length = slots.length ∧ ∀ i, t.slot i = slots.getD i 0 := by
  obtain ⟨t, htable, hlength, hslot⟩ := hb.ofDense
  have htable' : Table.ofDense r.bytes headerSize (h.clipped slots.length).offsetCount
      = .ok (.dense t) := htable
  rw [Store.ofDenseRegion, Attempt.ofExcept_bind hb.headerFor, Host.note_bind,
    Attempt.ofExcept_bind htable']
  exact ⟨t, _, rfl, hlength, hslot⟩

/-- A region whose header cannot be parsed is refused with the parser's failure. -/
theorem ofDenseRegion_of_parse_error {e : Failure} (running : Version) (host : Host)
    (hparse : Header.parse (r.bytes.data.toList.take headerSize) = .error e) :
    Store.ofDenseRegion r running host = (.error e, host) := by
  have hheader : headerFor r.bytes running = .error e := by rw [headerFor, hparse]
  rw [Store.ofDenseRegion, hheader]
  rfl

/-! ## Images -/

/-- The image is parsed whatever follows it, and a region that holds it makes a table of its
slots, with zeros behind the last one. -/
structure ReadsBack (image : List UInt8) (h : Header) (slots : List UInt32) : Prop where
  header : ∀ rest, Header.parse (image ++ rest) = .ok (h.clipped slots.length)
  table : ∀ r host, octets r.bytes = image → ∃ t host', Store.ofDenseRegion r h.version host
      = (.ok (⟨r, .dense t⟩, h.clipped slots.length), host')
    ∧ t.length = slots.length ∧ ∀ i, t.slot i = slots.getD i 0

/-- The image is refused whatever follows it, and so is a region that holds it. -/
structure Refused (image : List UInt8) (h : Header) (e : Failure) : Prop where
  header : ∀ rest, Header.parse (image ++ rest) = .error e
  table : ∀ r host, octets r.bytes = image → Store.ofDenseRegion r h.version host = (.error e, host)

theorem readsBack_of_lt (himage : encode? h slots = some image)
    (hpointer : h.pointerSize.toNat < countLimit) : ReadsBack image h slots := by
  obtain ⟨rfl, hname, hcount⟩ := encode?_eq_some himage
  refine ⟨fun rest => ?_, fun r host hbytes => ?_⟩
  · rw [fileBytes, List.append_assoc, Header.parse_eq,
      Header.read_bytes hname hpointer hcount]
  · exact Holds.ofDenseRegion ⟨hbytes, hname, hpointer, hcount⟩ host

theorem refused_of_le (himage : encode? h slots = some image)
    (hpointer : countLimit ≤ h.pointerSize.toNat) :
    Refused image h
      (.malformedHeader (.negative "pointer size" (h.pointerSize.toNat - 2 ^ 32))) := by
  obtain ⟨rfl, hname, -⟩ := encode?_eq_some himage
  refine ⟨fun rest => ?_, fun r host hbytes => ?_⟩
  · rw [fileBytes, List.append_assoc, Header.parse_eq,
      Header.read_bytes_negative hname hpointer]
  · refine ofDenseRegion_of_parse_error _ _ ?_
    rw [← octets, hbytes, fileBytes, List.take_left' (Header.length_bytes hname _),
      ← List.append_nil (h.bytes slots.length), Header.parse_eq,
      Header.read_bytes_negative hname hpointer]

/-- **Round trip of the image.** It is not written exactly if the name is longer than 63 bytes or
the slots are more than a signed word counts. What is written reads back, header and slots, exactly
if the pointer size is a signed word too. With its sign bit set the image is written all the same,
and nobody reads it: the pointer size is less than zero by then. -/
theorem encode?_reads_back (h : Header) (slots : List UInt32) :
    (encode? h slots = none ↔ 63 < h.name.utf8ByteSize ∨ 2 ^ 31 - 1 < slots.length)
      ∧ ∀ image, encode? h slots = some image →
        (ReadsBack image h slots ↔ h.pointerSize.toNat < 2 ^ 31)
          ∧ (2 ^ 31 ≤ h.pointerSize.toNat → Refused image h
            (.malformedHeader (.negative "pointer size" (h.pointerSize.toNat - 2 ^ 32)))) := by
  refine ⟨encode?_eq_none_iff, fun image himage => ⟨⟨fun hback => ?_, ?_⟩, ?_⟩⟩
  · by_contra hpointer
    have hrefused := (refused_of_le himage (Nat.le_of_not_lt hpointer)).header []
    rw [hback.header] at hrefused
    cases hrefused
  · exact fun hpointer => readsBack_of_lt himage hpointer
  · exact fun hpointer => refused_of_le himage hpointer

/-- A header with a usual pointer size. -/
def Header.usual : Header :=
  ⟨⟨1, 6, 1170, 0⟩, "SkyrimSE.exe", 8, 0, 0⟩

/-- A header whose pointer size is the sign bit. -/
def Header.wide : Header :=
  ⟨⟨1, 0, 0, 0⟩, "", 2147483648, 0, 0⟩

theorem encode?_reads_back_usual :
    (∃ image, encode? .usual [0, 4096] = some image ∧ image.length = 104
        ∧ ReadsBack image .usual [0, 4096])
      ∧ ∃ image, encode? .wide [] = some image
        ∧ Refused image .wide (.malformedHeader (.negative "pointer size" (-2147483648))) := by
  have husual : encode? .usual [0, 4096] = some (fileBytes .usual [0, 4096]) := rfl
  have hwide : encode? .wide [] = some (fileBytes .wide []) := rfl
  obtain ⟨hback, -⟩ := (encode?_reads_back .usual [0, 4096]).2 _ husual
  obtain ⟨-, hrefused⟩ := (encode?_reads_back .wide []).2 _ hwide
  exact ⟨⟨_, husual, rfl, hback.2 (by decide)⟩, _, hwide, hrefused (by decide)⟩

/-- The header with the sign bit is written and not parsed. -/
theorem wide_unread :
    ∃ image, encode? .wide [] = some image
      ∧ Header.parse image ≠ .ok (Header.wide.clipped 0)
      ∧ Header.parse image
        = .error (.malformedHeader (.negative "pointer size" (-2147483648))) := by
  have hparse : Header.parse (fileBytes .wide [])
      = .error (.malformedHeader (.negative "pointer size" (-2147483648))) := rfl
  refine ⟨_, rfl, ?_, hparse⟩
  rw [hparse]
  exact nofun

end OffsetAtlas.Dense
