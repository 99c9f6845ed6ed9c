/-
OffsetAtlas.Proofs.Bytes.Sequence — any readings one after another, failed ones included.

Most readings are of one run of bytes and so all or nothing: they pass as many bytes as they are
wide and answer what those stand for, or they pass none and tell how many there were
(`Reading.take_of_le`, `Reading.take_of_lt`). The words of a version are four runs, and fail behind
the words that were still there.

Wherever a sequence of readings has led, the next one does exactly this (`Exact`). The readings are
written out once more in the steps that a machine takes, on a position in place of a cursor: what is
left is a difference, the end of a run is a sum inside the address space, a run lies between two
positions of the block, and a word is copied from a run of its own length. On cursors of the block
each of these steps holds, because what is left has been compared with what is asked for before
there is a sum (`Follows`).
-/
import Mathlib.Data.Nat.Digits.Defs
import OffsetAtlas.Proofs.Bytes.Cursor
import OffsetAtlas.Proofs.Table.Checked

namespace OffsetAtlas

/-! ## Numbers -/

namespace Bytes

/-- The number whose digits to the base 256 are these bytes, the last one the most significant. -/
def littleEndian (bs : List UInt8) : Nat :=
  Nat.ofDigits 256 (bs.map UInt8.toNat)

theorem read_eq_littleEndian (bs : List UInt8) : read bs = littleEndian bs := by
  induction bs with
  | nil => rfl
  | cons b bs ih => rw [read, ih, littleEndian, littleEndian, List.map_cons, Nat.ofDigits_cons]

theorem littleEndian_lt (bs : List UInt8) : littleEndian bs < capacity bs.length :=
  read_eq_littleEndian bs ▸ read_lt bs

/-- A 32-bit word as a number with a sign. -/
def twosComplement (n : Nat) : Int :=
  if n < 2 ^ 31 then n else n - 2 ^ 32

theorem toInt_ofNat {n : Nat} (h : n < capacity 4) : (Int32.ofNat n).toInt = twosComplement n := by
  have hroom : n < 2 ^ 32 := h
  rw [Int32.toInt_ofNat', Int.bmod_def, show Int32.size = 2 ^ 32 from rfl, twosComplement]
  split <;> split <;> omega

end Bytes

namespace Reader

/-! ## Readings -/

/-- What can be read. A run of bytes may be of any length. -/
inductive Reading where
  | u8 (what : String)
  | u16 (what : String)
  | u32 (what : String)
  | i32 (what : String)
  | u64 (what : String)
  | bytes (length : Nat) (what : String)
  | versionWords

namespace Reading

def Answer : Reading → Type
  | u8 _ => UInt8
  | u16 _ => UInt16
  | u32 _ => UInt32
  | i32 _ => Int32
  | u64 _ => UInt64
  | bytes _ _ => List UInt8
  | versionWords => Vector UInt32 4

def take : (x : Reading) → Attempt Reader x.Answer
  | u8 what => Reader.u8 what
  | u16 what => Reader.u16 what
  | u32 what => Reader.u32 what
  | i32 what => Reader.i32 what
  | u64 what => Reader.u64 what
  | bytes length what => Reader.bytes length what
  | versionWords => Reader.versionWords

/-- How many bytes an answer takes. -/
def width : Reading → Nat
  | u8 _ => 1
  | u16 _ => 2
  | u32 _ => 4
  | i32 _ => 4
  | u64 _ => 8
  | bytes length _ => length
  | versionWords => 16

/-- What is missing if there are too few bytes. -/
def what : Reading → String
  | u8 what => what
  | u16 what => what
  | u32 what => what
  | i32 what => what
  | u64 what => what
  | bytes _ what => what
  | versionWords => "game version"

/-- The answer that a run of bytes stands for. -/
def Means (run : List UInt8) : (x : Reading) → x.Answer → Prop
  | u8 _ => fun (n : UInt8) => n.toNat = Bytes.littleEndian run
  | u16 _ => fun (n : UInt16) => n.toNat = Bytes.littleEndian run
  | u32 _ => fun (n : UInt32) => n.toNat = Bytes.littleEndian run
  | i32 _ => fun (n : Int32) => n.toInt = Bytes.twosComplement (Bytes.littleEndian run)
  | u64 _ => fun (n : UInt64) => n.toNat = Bytes.littleEndian run
  | bytes _ _ => fun (bs : List UInt8) => bs = run
  | versionWords => fun (words : Vector UInt32 4) => ∀ i (_ : i < 4),
      words[i].toNat = Bytes.littleEndian ((run.drop (4 * i)).take 4)

variable {x : Reading} {r : Reader}

/-- A number that is made of a word is made of a run, if the numbers with room in a word make it. -/
theorem word_eq_run {α : Type} (w : Nat) (make : Nat → α) (means : Nat → α → Prop)
    (hmake : ∀ n < Bytes.capacity w, means n (make n)) (what : String) :
    ∃ f, make <$> word w what = f <$> Reader.bytes w what
      ∧ ∀ run, run.length = w → means (Bytes.littleEndian run) (f run) := by
  refine ⟨_, (comp_map Bytes.read make _).symm, fun run hrun => ?_⟩
  have hroom := Bytes.littleEndian_lt run
  rw [hrun] at hroom
  rw [Function.comp_apply, Bytes.read_eq_littleEndian]
  exact hmake _ hroom

/-- Every reading but one is of a run, and answers what the run stands for. -/
theorem take_eq_run (hx : x ≠ versionWords) :
    ∃ f, x.take = f <$> Reader.bytes x.width x.what
      ∧ ∀ run, run.length = x.width → x.Means run (f run) := by
  cases x with
  | u8 what =>
    exact word_eq_run 1 UInt8.ofNat (fun n b => b.toNat = n)
      (fun _ hn => UInt8.toNat_ofNat_of_lt' hn) what
  | u16 what =>
    exact word_eq_run 2 UInt16.ofNat (fun n b => b.toNat = n)
      (fun _ hn => UInt16.toNat_ofNat_of_lt' hn) what
  | u32 what =>
    exact word_eq_run 4 UInt32.ofNat (fun n b => b.toNat = n)
      (fun _ hn => UInt32.toNat_ofNat_of_lt' hn) what
  | i32 what =>
    exact word_eq_run 4 Int32.ofNat (fun n b => b.toInt = Bytes.twosComplement n)
      (fun _ hn => Bytes.toInt_ofNat hn) what
  | u64 what =>
    exact word_eq_run 8 UInt64.ofNat (fun n b => b.toNat = n)
      (fun _ hn => UInt64.toNat_ofNat_of_lt' hn) what
  | bytes length what => exact ⟨id, (id_map _).symm, fun run _ => rfl⟩
  | versionWords => exact absurd rfl hx

/-- With enough bytes in front of it a reading passes them and answers what they stand for. -/
theorem take_of_le (h : x.width ≤ r.remaining) :
    ∃ a, x.take r = (.ok a, r.skip x.width) ∧ x.Means (r.unread.take x.width) a := by
  by_cases hx : x = versionWords
  · subst hx
    refine ⟨_, versionWords_of_le h, fun i hi => ?_⟩
    have hremaining : 4 * i + 4 ≤ r.remaining := by
      have hroom : 16 ≤ r.remaining := h
      omega
    have hrun : ((r.unread.take 16).drop (4 * i)).take 4 = (r.unread.drop (4 * i)).take 4 := by
      rw [List.drop_take, List.take_take, Nat.min_eq_left (by omega)]
    rw [Vector.getElem_ofFn, toNat_wordAt hremaining, Bytes.read_eq_littleEndian, ← hrun]
    rfl
  · obtain ⟨f, htake, hmeans⟩ := take_eq_run hx
    refine ⟨f (r.unread.take x.width), ?_, hmeans _ (List.length_take_of_le h)⟩
    rw [htake, run_of_le h]

/-- With fewer bytes a reading of one run stays where it was. -/
theorem take_of_lt (hx : x ≠ versionWords) (h : r.remaining < x.width) :
    x.take r = (.error (.truncated x.what x.width r.remaining), r) := by
  obtain ⟨f, htake, -⟩ := take_eq_run hx
  rw [htake, run_of_lt h]

theorem width_le_of_take {a : x.Answer} {t : Reader} (h : x.take r = (.ok a, t)) :
    x.width ≤ r.remaining := by
  apply Nat.le_of_not_lt
  intro hshort
  by_cases hx : x = versionWords
  · subst hx
    have hcut := versionWords_of_lt hshort
    cases h.symm.trans hcut
  · cases h.symm.trans (take_of_lt hx hshort)

theorem lt_width_of_take {e : Failure} {t : Reader} (h : x.take r = (.error e, t)) :
    r.remaining < x.width := by
  apply Nat.lt_of_not_le
  intro hroom
  obtain ⟨a, htake, -⟩ := take_of_le hroom
  cases h.symm.trans htake

theorem stays_take (x : Reading) : Stays x.take := by
  cases x with
  | u8 what => exact stays_u8 what
  | u16 what => exact stays_u16 what
  | u32 what => exact stays_u32 what
  | i32 what => exact stays_i32 what
  | u64 what => exact stays_u64 what
  | bytes length what => exact stays_bytes length what
  | versionWords => exact stays_versionWords

end Reading

/-- What a reading does at a cursor of a block. -/
structure Exact (block : ByteArray) (x : Reading) (r : Reader) : Prop where
  whole : (x.take r).2.position + (x.take r).2.remaining = block.size
  answers : x.width ≤ block.size - r.position → ∃ a t, x.take r = (.ok a, t)
  answered : ∀ a t, x.take r = (.ok a, t) → t.position = r.position + x.width
    ∧ x.Means (((octets block).take t.position).drop r.position) a
  /-- A reading of one run is all or nothing. -/
  failed : x ≠ .versionWords → ∀ e t, x.take r = (.error e, t) →
    t = r ∧ block.size - r.position < x.width
      ∧ e = .truncated x.what x.width (block.size - r.position)
  /-- A version that is cut short leaves the cursor behind the words that were there. -/
  cut : x = .versionWords → ∀ e t, x.take r = (.error e, t) →
    ∃ k < 4, t.position = r.position + 4 * k ∧ block.size - t.position < 4
      ∧ e = .truncated "game version" 4 (block.size - t.position)

theorem Within.position_add_remaining {source : List UInt8} {r : Reader} (hr : r.Within source) :
    r.position + r.remaining = source.length := by
  have hle := hr.position_le
  rw [hr.remaining_eq]
  omega

theorem Reached.exact {block : ByteArray} {r : Reader} (hr : Reached (octets block) r)
    (x : Reading) : Exact block x r where
  whole := (Reading.stays_take x _ r hr).within.position_add_remaining
  answers h := by
    have hremaining : r.remaining = block.size - r.position := hr.within.remaining_eq
    rw [← hremaining] at h
    obtain ⟨a, htake, -⟩ := Reading.take_of_le h
    exact ⟨a, _, htake⟩
  answered a t htake := by
    obtain ⟨a', htake', hmeans⟩ := Reading.take_of_le (Reading.width_le_of_take htake)
    cases htake.symm.trans htake'
    rw [hr.within.take_unread] at hmeans
    exact ⟨rfl, hmeans⟩
  failed hx e t htake := by
    have hremaining : r.remaining = block.size - r.position := hr.within.remaining_eq
    have hshort := Reading.lt_width_of_take htake
    cases htake.symm.trans (Reading.take_of_lt hx hshort)
    rw [← hremaining]
    exact ⟨rfl, hshort, rfl⟩
  cut hx e t htake := by
    subst hx
    have hremaining : r.remaining = block.size - r.position := hr.within.remaining_eq
    have hshort : r.remaining < 16 := Reading.lt_width_of_take htake
    cases htake.symm.trans (versionWords_of_lt hshort)
    have hleft : block.size - (r.skip (4 * (r.remaining / 4))).position = r.remaining % 4 := by
      show block.size - (r.position + 4 * (r.remaining / 4)) = _
      omega
    rw [hleft]
    exact ⟨r.remaining / 4, by omega, rfl, Nat.mod_lt _ (by decide), rfl⟩

/-! ## Sequences -/

/-- The cursor after some readings, each of them taken whether or not the ones before it failed. -/
def after (block : ByteArray) (done : List Reading) : Reader :=
  done.foldl (fun r x => (x.take r).2) (.ofBytes (octets block))

theorem Reached.foldl {source : List UInt8} {r : Reader} (hr : Reached source r)
    (done : List Reading) : Reached source (done.foldl (fun r x => (x.take r).2) r) := by
  induction done generalizing r with
  | nil => exact hr
  | cons x done ih => exact ih (Reading.stays_take x source r hr)

theorem reached_after (block : ByteArray) (done : List Reading) :
    Reached (octets block) (after block done) :=
  Reached.start.foldl done

end Reader

/-! ## Steps that can fail -/

namespace Checked

/-- Steps on a position in a block. They end in an answer or a failure if each of them holds, and
not at all otherwise. -/
abbrev Steps (α : Type) := ExceptT Failure (StateT Nat Option) α

namespace Steps

/-- The next `n` bytes. -/
def bytes (block : ByteArray) (n : Nat) (what : String) : Steps (List UInt8) := fun position => do
  let available ← sub block.size position
  if available < n then return (.error (.truncated what n available), position)
  else
    let last ← add position n
    let run ← slice block position last
    return (.ok run, last)

/-- A run copied into a word, which has to be of its length. -/
def copied (w : Nat) (run : List UInt8) : Steps (List UInt8) := fun position =>
  if run.length = w then some (.ok run, position) else none

def word (block : ByteArray) (w : Nat) (what : String) : Steps Nat := do
  let run ← bytes block w what
  return Bytes.read (← copied w run)

def u32 (block : ByteArray) (what : String) : Steps UInt32 :=
  UInt32.ofNat <$> word block 4 what

def versionWords (block : ByteArray) : Steps (Vector UInt32 4) := do
  let major ← u32 block "game version"
  let minor ← u32 block "game version"
  let patch ← u32 block "game version"
  let build ← u32 block "game version"
  return .ofFn [major, minor, patch, build].get

theorem bind_apply {α β : Type} (y : Steps α) (g : α → Steps β) (position : Nat) :
    (y >>= g) position = (y position).bind fun outcome => match outcome with
      | (.ok a, next) => g a next
      | (.error e, next) => some (.error e, next) := by
  simp only [bind, ExceptT.bind, ExceptT.mk, StateT.bind, ExceptT.bindCont]
  refine congrArg _ (funext fun outcome => ?_)
  rcases outcome with ⟨_ | _, next⟩ <;> rfl

end Steps

end Checked

namespace Reader

open Checked (Steps)

/-- On every cursor of a block the steps hold and do what the reading does. -/
structure Follows {α : Type} (block : ByteArray) (x : Attempt Reader α) (y : Steps α) : Prop where
  stays : Stays x
  agrees : ∀ r, Reached (octets block) r → y r.position = some ((x r).1, (x r).2.position)

section

variable {α β : Type} {block : ByteArray} {x : Attempt Reader α} {y : Steps α}

theorem follows_pure (block : ByteArray) (a : α) : Follows block (pure a) (pure a) :=
  ⟨stays_pure a, fun _ _ => rfl⟩

theorem Follows.bind {f : α → Attempt Reader β} {g : α → Steps β} (hx : Follows block x y)
    (hf : ∀ a, Follows block (f a) (g a)) : Follows block (x >>= f) (y >>= g) where
  stays := hx.stays.bind fun a => (hf a).stays
  agrees r hr := by
    have hnext := hx.stays _ r hr
    rw [Steps.bind_apply, hx.agrees r hr, Attempt.bind_apply]
    rcases hxr : x r with ⟨e | a, t⟩ <;> rw [hxr] at hnext
    · rfl
    · exact (hf a).agrees t hnext

theorem Follows.map (hx : Follows block x y) (f : α → β) : Follows block (f <$> x) (f <$> y) := by
  rw [map_eq_pure_bind, map_eq_pure_bind]
  exact hx.bind fun a => follows_pure block (f a)

/-- The end of a run is computed only where there is such a run. -/
theorem follows_bytes (hblock : block.size < addressSpace) (n : Nat) (what : String) :
    Follows block (bytes n what) (Steps.bytes block n what) where
  stays := stays_bytes n what
  agrees r hr := by
    have hle : r.position ≤ block.size := hr.within.position_le
    have hremaining : block.size - r.position = r.remaining := hr.within.remaining_eq.symm
    rw [Steps.bytes, Checked.sub_of_le hle, hremaining, Option.bind_eq_bind, Option.bind_some]
    split
    · next hshort =>
      rw [bytes_of_lt hshort]
      rfl
    · next hroom =>
      have hrun : n ≤ r.remaining := Nat.le_of_not_lt hroom
      rw [bytes_of_le hrun, Checked.add_of_lt (by omega), Option.bind_some, Checked.slice,
        if_pos ⟨by omega, by omega⟩, ← hr.within.take_unread]
      rfl

/-- A run that was taken is as long as the word that it is copied into. -/
theorem follows_word (hblock : block.size < addressSpace) (w : Nat) (what : String) :
    Follows block (word w what) (Steps.word block w what) where
  stays := stays_word w what
  agrees r hr := by
    rw [Steps.word, Steps.bind_apply, (follows_bytes hblock w what).agrees r hr, word,
      Attempt.map_apply]
    rcases hbytes : bytes w what r with ⟨e | run, t⟩
    · rfl
    · obtain ⟨-, hlength, -⟩ := bytes_of_ok hbytes
      show (Steps.copied w run >>= fun bs => pure (Bytes.read bs)) t.position = _
      rw [Steps.bind_apply, Steps.copied, if_pos hlength]
      rfl

theorem follows_u32 (hblock : block.size < addressSpace) (what : String) :
    Follows block (u32 what) (Steps.u32 block what) :=
  (follows_word hblock 4 what).map UInt32.ofNat

theorem follows_versionWords (hblock : block.size < addressSpace) :
    Follows block versionWords (Steps.versionWords block) := by
  have hword := follows_u32 hblock "game version"
  exact hword.bind fun _ => hword.bind fun _ => hword.bind fun _ => hword.bind fun _ =>
    follows_pure block _

end

/-- A reading in steps. -/
def Reading.steps (block : ByteArray) : (x : Reading) → Steps x.Answer
  | u8 what => UInt8.ofNat <$> Steps.word block 1 what
  | u16 what => UInt16.ofNat <$> Steps.word block 2 what
  | u32 what => Steps.u32 block what
  | i32 what => Int32.ofNat <$> Steps.word block 4 what
  | u64 what => UInt64.ofNat <$> Steps.word block 8 what
  | bytes length what => Steps.bytes block length what
  | versionWords => Steps.versionWords block

theorem Reading.follows {block : ByteArray} (hblock : block.size < addressSpace) (x : Reading) :
    Follows block x.take (x.steps block) := by
  cases x with
  | u8 what => exact (follows_word hblock 1 what).map _
  | u16 what => exact (follows_word hblock 2 what).map _
  | u32 what => exact follows_u32 hblock what
  | i32 what => exact (follows_word hblock 4 what).map _
  | u64 what => exact (follows_word hblock 8 what).map _
  | bytes length what => exact follows_bytes hblock length what
  | versionWords => exact follows_versionWords hblock

/-- The position after some readings in steps. -/
def positionAfter (block : ByteArray) (done : List Reading) : Option Nat :=
  done.foldlM (fun position x => (x.steps block position).map Prod.snd) 0

theorem positionAfter_eq {block : ByteArray} (hblock : block.size < addressSpace)
    (done : List Reading) : positionAfter block done = some (after block done).position := by
  have hfrom : ∀ r, Reached (octets block) r →
      done.foldlM (fun position x => (x.steps block position).map Prod.snd) r.position
        = some (done.foldl (fun r x => (x.take r).2) r).position := by
    induction done with
    | nil => exact fun r _ => rfl
    | cons x done ih =>
      intro r hr
      rw [List.foldlM_cons, (x.follows hblock).agrees r hr]
      exact ih _ (Reading.stays_take x _ r hr)
  exact hfrom _ .start

/-- No step of some readings, or of another one after them, fails to hold. -/
structure StepsHold (block : ByteArray) (done : List Reading) (x : Reading) : Prop where
  position : positionAfter block done = some (after block done).position
  remaining : Checked.sub block.size (after block done).position
    = some (after block done).remaining
  next : x.steps block (after block done).position
    = some ((x.take (after block done)).1, (x.take (after block done)).2.position)

/-- **Readings in a row.** After any readings, failed or not, the next one keeps what is behind the
cursor and what is left together the whole block; it answers what the bytes that it passes stand
for; if it fails it stays where it was, or behind the words of a version that were there, and tells
how many bytes were left; and none of this takes a step past the block or out of the address space.
-/
theorem exact_after (block : ByteArray) (done : List Reading) (x : Reading) :
    Exact block x (after block done) ∧ (block.size < addressSpace → StepsHold block done x) := by
  have hr := reached_after block done
  refine ⟨hr.exact x, fun hblock => ⟨positionAfter_eq hblock done, ?_, ?_⟩⟩
  · rw [hr.within.remaining_eq]
    exact Checked.sub_of_le hr.within.position_le
  · exact (x.follows hblock).agrees _ hr

def nineBytes : ByteArray :=
  ⟨#[1, 2, 3, 4, 5, 6, 7, 8, 9]⟩

/-- A number, one that is cut short, and a version of which one word is there. -/
theorem exact_after_cut :
    nineBytes.size < addressSpace
      ∧ (after nineBytes [.u16 "mark", .u64 "count"]).position = 2
      ∧ (after nineBytes [.u16 "mark", .u64 "count", .versionWords]).position = 6
      ∧ Exact nineBytes .versionWords (after nineBytes [.u16 "mark", .u64 "count"])
      ∧ StepsHold nineBytes [.u16 "mark", .u64 "count"] .versionWords := by
  have hblock : nineBytes.size < addressSpace := by decide
  obtain ⟨hexact, hsteps⟩ := exact_after nineBytes [.u16 "mark", .u64 "count"] .versionWords
  exact ⟨hblock, by decide, by decide, hexact, hsteps hblock⟩

end Reader

end OffsetAtlas
