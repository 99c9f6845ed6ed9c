/-
OffsetAtlas.Proofs.Delta.Delimited — a stream of records needs no closing mark.

How many bytes a record takes is told by its control byte, so a stream that is read for so many
records ends where the last of them does. What stands behind is never looked at, and a stream that
is cut anywhere, before a control byte or inside a payload, is found to be too short and nothing
else (`decodeRecords_delimited`). Which bytes were taken is a matter of what is stored only; the
numbers that are carried from record to record have no part in it, and so the whole argument is
about `readRecords`.
-/
import OffsetAtlas.Proofs.Bytes.Delimited
import OffsetAtlas.Proofs.Delta.Records

namespace OffsetAtlas.Delta

open Reader

/-! ## One record -/

theorem delimited_readField (code : Nat) (control : UInt8) (record : Nat) :
    Delimited (readField code control record) := by
  rw [readField]
  cases Mode.ofCode? code with
  | none => exact delimited_fail _
  | some mode => exact (delimited_word _ _).map _

/-- The pointer size is looked at before the payload, so a cut in the payload is found as such. -/
theorem delimited_readOffset (pointerSize : UInt64) (high : Nat) (control : UInt8) (record : Nat) :
    Delimited (readOffset pointerSize high control record) := by
  rw [readOffset]
  split
  · split
    · exact delimited_fail _
    · exact (delimited_readField _ _ _).map _
  · exact (delimited_readField _ _ _).map _

theorem delimited_readRecord (pointerSize : UInt64) (record : Nat) :
    Delimited (readRecord pointerSize record) := by
  refine (delimited_u8 _).bind fun control => ?_
  refine (delimited_readField _ _ _).bind fun id => ?_
  refine (delimited_readOffset _ _ _ _).bind fun offset => ?_
  exact delimited_pure _

/-! ## Streams -/

theorem delimited_readRecords (pointerSize : UInt64) (count record : Nat) :
    Delimited (readRecords pointerSize count record) := by
  induction count generalizing record with
  | zero => exact delimited_pure []
  | succ count ih =>
    refine (delimited_readRecord pointerSize record).bind fun first => ?_
    exact (ih (record + 1)).bind fun others => delimited_pure _

theorem delimited_decodeRecords (pointerSize : UInt64) (count : Nat) :
    Delimited (decodeRecords pointerSize count) := by
  rw [decodeRecords_eq]
  exact (delimited_readRecords pointerSize count 0).map _

/-- **Streams of records delimit themselves.** If so many records were read, from whatever place,
then there are that many entries; their bytes give the same entries again whatever is put behind
them, and leave just that; and cut short anywhere they are reported as truncated. -/
theorem decodeRecords_delimited {pointerSize : UInt64} {count position : Nat} {bytes : List UInt8}
    {entries : List Entry} {r : Reader}
    (h : Attempt.on ⟨position, bytes⟩ (decodeRecords pointerSize count) = (.ok entries, r)) :
    entries.length = count
      ∧ ∃ k ≤ bytes.length, r = ⟨position + k, bytes.drop k⟩
        ∧ (∀ start rest, Attempt.on ⟨start, bytes.take k ++ rest⟩ (decodeRecords pointerSize count)
          = (.ok entries, ⟨start + k, rest⟩))
        ∧ ∀ start, ∀ j < k, ∃ what needed available t, available < needed
          ∧ Attempt.on ⟨start, bytes.take j⟩ (decodeRecords pointerSize count)
            = (.error (.truncated what needed available), t) := by
  obtain ⟨taken, hbytes, hposition, htakes⟩ := delimited_decodeRecords _ _ _ _ _ h
  have hbytes : bytes = taken ++ r.unread := hbytes
  have hfront : bytes.take taken.length = taken := by rw [hbytes, List.take_left]
  refine ⟨length_decodeRecords (congrArg Prod.fst h), taken.length, ?_, ?_, ?_, ?_⟩
  · rw [hbytes, List.length_append]
    exact Nat.le_add_right _ _
  · cases r with
    | mk now unread =>
      have hnow : now = position + taken.length := hposition
      rw [hbytes, List.drop_left, hnow]
  · intro start rest
    rw [hfront]
    exact htakes.whole start rest
  · intro start j hj
    have hcut : bytes.take j = taken.take j := by
      rw [← hfront, List.take_take, Nat.min_eq_left (Nat.le_of_lt hj)]
    rw [hcut]
    exact htakes.cut start j hj

/-- Two records, the second with an offset in pointers. -/
def twoRecords : List UInt8 :=
  [0x22, 5, 16, 0xA2, 3, 2]

theorem decodeRecords_delimited_twoRecords :
    Attempt.on ⟨0, twoRecords ++ [0x88]⟩ (decodeRecords 8 2)
        = (.ok [⟨5, 16⟩, ⟨8, 32⟩], ⟨6, [0x88]⟩)
      ∧ (∀ rest, Attempt.on ⟨0, twoRecords ++ rest⟩ (decodeRecords 8 2)
        = (.ok [⟨5, 16⟩, ⟨8, 32⟩], ⟨6, rest⟩))
      ∧ ∀ j < 6, ∃ what needed available t, available < needed
        ∧ Attempt.on ⟨0, twoRecords.take j⟩ (decodeRecords 8 2)
          = (.error (.truncated what needed available), t) := by
  have hrun : Attempt.on ⟨0, twoRecords ++ [0x88]⟩ (decodeRecords 8 2)
      = (.ok [⟨5, 16⟩, ⟨8, 32⟩], ⟨6, [0x88]⟩) := rfl
  obtain ⟨-, k, -, hr, hwhole, hcut⟩ := decodeRecords_delimited hrun
  obtain rfl : 6 = k := (congrArg Reader.position hr).trans (Nat.zero_add k)
  refine ⟨hrun, fun rest => hwhole 0 rest, fun j hj => ?_⟩
  have hfront : (twoRecords ++ [0x88]).take j = twoRecords.take j :=
    List.take_append_of_le_length (Nat.le_of_lt hj)
  rw [← hfront]
  exact hcut 0 j hj

end OffsetAtlas.Delta
