/-
OffsetAtlas.Proofs.Bytes.Cursor — where readings leave the cursor.

Nothing but a run of bytes moves a cursor, so the cursors of a byte string are the ones that runs
lead to (`Reached`). None of them has passed more bytes than there are, and what is left is what it
has not passed (`Reached.within`). A reading is made of runs, so it stays among these cursors
whether or not it succeeds (`Stays`), and so does each of the readings that loads are made of.
-/
import OffsetAtlas.Delta.Header
import OffsetAtlas.Dense
import OffsetAtlas.Proofs.Delta.Records

namespace OffsetAtlas

namespace Reader

/-- The cursors that runs lead to from the front of a byte string. -/
inductive Reached (source : List UInt8) : Reader → Prop where
  | start : Reached source (.ofBytes source)
  | run {r : Reader} (before : Reached source r) (n : Nat) (what : String) :
    Reached source (bytes n what r).2

/-- A cursor inside a byte string, in front of all that it has not passed. -/
structure Within (source : List UInt8) (r : Reader) : Prop where
  position_le : r.position ≤ source.length
  unread_eq : r.unread = source.drop r.position

variable {source : List UInt8} {r : Reader} {α β : Type}

/-- A run leaves the byte string only if it is not taken. -/
theorem Within.bytes (hr : r.Within source) (n : Nat) (what : String) :
    (bytes n what r).2.Within source := by
  obtain ⟨hposition, hunread⟩ := hr
  simp only [Reader.bytes]
  split
  · next hrun =>
    rw [hunread, List.length_take, List.length_drop] at hrun
    refine ⟨?_, ?_⟩
    · show r.position + n ≤ source.length
      omega
    · show r.unread.drop n = source.drop (r.position + n)
      rw [hunread, List.drop_drop]
  · exact ⟨hposition, hunread⟩

theorem Reached.within (h : Reached source r) : r.Within source := by
  induction h with
  | start => exact ⟨Nat.zero_le _, rfl⟩
  | run _ n what ih => exact ih.bytes n what

theorem Within.remaining_eq (hr : r.Within source) :
    r.remaining = source.length - r.position := by
  rw [remaining, hr.unread_eq, List.length_drop]

/-- The next bytes are the ones between the cursor and where they end. -/
theorem Within.take_unread (hr : r.Within source) (n : Nat) :
    r.unread.take n = (source.take (r.position + n)).drop r.position := by
  rw [hr.unread_eq, List.drop_take, Nat.add_sub_cancel_left]

/-! ## Readings -/

/-- A reading that leads from reached cursors to reached cursors, failing or not. -/
def Stays (x : Attempt Reader α) : Prop :=
  ∀ source r, Reached source r → Reached source (x r).2

theorem stays_bytes (n : Nat) (what : String) : Stays (bytes n what) :=
  fun _ _ h => h.run n what

theorem stays_pure (a : α) : Stays (pure a : Attempt Reader α) :=
  fun _ _ h => h

theorem stays_fail (e : Failure) : Stays (Attempt.fail e : Attempt Reader α) :=
  fun _ _ h => h

theorem Stays.bind {x : Attempt Reader α} {f : α → Attempt Reader β} (hx : Stays x)
    (hf : ∀ a, Stays (f a)) : Stays (x >>= f) := by
  intro source r hr
  have hnext := hx source r hr
  rw [Attempt.bind_apply]
  rcases hxr : x r with ⟨e | a, t⟩ <;> rw [hxr] at hnext
  · exact hnext
  · exact hf a source t hnext

theorem Stays.map {x : Attempt Reader α} (hx : Stays x) (f : α → β) : Stays (f <$> x) := by
  intro source r hr
  have hnext := hx source r hr
  rw [Attempt.map_apply]
  rcases hxr : x r with ⟨e | a, t⟩ <;> rw [hxr] at hnext <;> exact hnext

theorem stays_word (w : Nat) (what : String) : Stays (word w what) :=
  (stays_bytes w what).map Bytes.read

theorem stays_u8 (what : String) : Stays (u8 what) :=
  (stays_word 1 what).map UInt8.ofNat

theorem stays_u16 (what : String) : Stays (u16 what) :=
  (stays_word 2 what).map UInt16.ofNat

theorem stays_u32 (what : String) : Stays (u32 what) :=
  (stays_word 4 what).map UInt32.ofNat

theorem stays_i32 (what : String) : Stays (i32 what) :=
  (stays_word 4 what).map Int32.ofNat

theorem stays_u64 (what : String) : Stays (u64 what) :=
  (stays_word 8 what).map UInt64.ofNat

theorem stays_versionWords : Stays versionWords := by
  have hword := stays_u32 "game version"
  exact hword.bind fun _ => hword.bind fun _ => hword.bind fun _ => hword.bind fun _ => stays_pure _

theorem stays_version : Stays version :=
  stays_versionWords.bind fun _ => stays_pure _

theorem stays_count (what : String) : Stays (count what) := by
  refine (stays_i32 what).bind fun n => ?_
  split
  · exact stays_fail _
  · exact stays_pure _

end Reader

/-! ## Headers and records -/

open Reader

theorem Dense.Header.stays_read : Stays read := by
  refine (stays_u32 _).bind fun tag => ?_
  split
  · exact stays_fail _
  · exact stays_version.bind fun _ => (stays_bytes _ _).bind fun _ => (stays_count _).bind fun _ =>
      (stays_i32 _).bind fun _ => (stays_count _).bind fun _ => stays_pure _

namespace Delta

theorem Header.stays_read : Stays read := by
  refine stays_version.bind fun _ => (stays_u32 _).bind fun nameLength => ?_
  split
  · exact stays_fail _
  · exact (stays_bytes _ _).bind fun _ => (stays_count _).bind fun _ => (stays_count _).bind fun _ =>
      stays_pure _

theorem stays_decodeField (code : Nat) (base : UInt64) (control : UInt8) (record : Nat) :
    Stays (decodeField code base control record) := by
  rw [decodeField]
  split
  · exact (stays_word _ _).map _
  · exact stays_fail _

theorem stays_decodeScaled (pointerSize : UInt64) (code : Nat) (base : UInt64) (control : UInt8)
    (record : Nat) : Stays (decodeScaled pointerSize code base control record) := by
  rw [decodeScaled]
  split
  · exact stays_fail _
  · exact (stays_decodeField _ _ _ _).map _

theorem stays_decodeRecord (pointerSize : UInt64) (record : Nat) (before : Entry) :
    Stays (decodeRecord pointerSize record before) := by
  refine (stays_u8 _).bind fun control => (stays_decodeField _ _ _ _).bind fun id => ?_
  show Stays (if _ then _ else _)
  split
  · exact (stays_decodeScaled _ _ _ _ _).bind fun _ => stays_pure _
  · exact (stays_decodeField _ _ _ _).bind fun _ => stays_pure _

/-- However many records are asked for, and wherever they end. -/
theorem stays_decodeRecords (pointerSize : UInt64) (count : Nat) :
    Stays (decodeRecords pointerSize count) := by
  have hfrom : ∀ record before done, Stays (decodeFrom pointerSize count record before done) := by
    induction count with
    | zero => exact fun _ _ _ => stays_pure _
    | succ count ih =>
      intro record before done
      rw [decodeFrom_succ]
      exact (stays_decodeRecord _ _ _).bind fun _ => ih _ _ _
  exact hfrom 0 ⟨0, 0⟩ []

end Delta

end OffsetAtlas
