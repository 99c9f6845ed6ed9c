/-
OffsetAtlas.Proofs.Identifier.Fallback — which identifier a build gets.

`resolveSlots` looks at the build's own slot, at the primary one, and then at all of them in order.
The primary slot is the first one, so looking at it by itself changes nothing, and what is left are
two steps: the own slot, zero where there is none, and the first slot that is given
(`resolveSlots_eq`). Neither step sees zeros behind the last slot. Hence slots that were filled up
with zeros for a fixed number of builds give every build what the plain list gives it
(`resolve_ofList`), and a caller with so many slots gets the addresses that the command line prints.

`Resolves` says the rule without steps, by what the slots look like.
-/
import OffsetAtlas.CommandLine.Run

namespace OffsetAtlas

variable {slots : List UInt64} {build n : Nat} {id : UInt64}

/-! ## The rule -/

/-- The identifier that a build gets from slots. The primary slot has no rule of its own. -/
inductive Resolves (slots : List UInt64) (build : Nat) : UInt64 → Prop where
  /-- Its own, if it has one. -/
  | own {id : UInt64} (hslot : slots[build]? = some id) (hid : id ≠ 0) : Resolves slots build id
  /-- Else the first that is given; a build behind the last slot has none of its own. -/
  | first {front back : List UInt64} {id : UInt64} (hslot : ∀ s, slots[build]? = some s → s = 0)
    (hslots : slots = front ++ id :: back) (hfront : ∀ s ∈ front, s = 0) (hid : id ≠ 0) :
    Resolves slots build id
  /-- No identifier is given at all. -/
  | none (hslots : ∀ s ∈ slots, s = 0) : Resolves slots build 0

/-! ## The first that is given -/

theorem firstGiven_cons_of_ne (hid : id ≠ 0) : firstGiven (id :: slots) = id := by
  simp [firstGiven, hid]

theorem firstGiven_append_of_zeros {front : List UInt64} (hfront : ∀ s ∈ front, s = 0) :
    firstGiven (front ++ slots) = firstGiven slots := by
  have hnone : front.find? (· ≠ 0) = none := by simpa using hfront
  rw [firstGiven, List.find?_append, hnone, Option.none_or, firstGiven]

/-- Zeros behind the slots give nothing. -/
theorem firstGiven_append_zeros (count : Nat) :
    firstGiven (slots ++ List.replicate count 0) = firstGiven slots := by
  have hnone : (List.replicate count (0 : UInt64)).find? (· ≠ 0) = none := by simp
  rw [firstGiven, List.find?_append, hnone, Option.or_none, firstGiven]

theorem firstGiven_of_forall (hslots : ∀ s ∈ slots, s = 0) : firstGiven slots = 0 := by
  have hnone : slots.find? (· ≠ 0) = none := by simpa using hslots
  rw [firstGiven, hnone]
  rfl

/-- A primary slot that is given is the first that is given. -/
theorem firstGiven_of_headD (hprimary : slots.headD 0 ≠ 0) : firstGiven slots = slots.headD 0 := by
  cases slots with
  | nil => exact absurd rfl hprimary
  | cons s rest => exact firstGiven_cons_of_ne hprimary

/-- Either nothing is given, or something is and only zeros stand in front of it. -/
theorem firstGiven_cases (slots : List UInt64) :
    (∀ s ∈ slots, s = 0) ∨ ∃ front back, slots = front ++ firstGiven slots :: back
      ∧ (∀ s ∈ front, s = 0) ∧ firstGiven slots ≠ 0 := by
  cases hfind : slots.find? (· ≠ 0) with
  | none => exact .inl (by simpa using hfind)
  | some id =>
    have hfirst : firstGiven slots = id := by rw [firstGiven, hfind]; rfl
    obtain ⟨hid, front, back, hslots, hfront⟩ := List.find?_eq_some_iff_append.1 hfind
    refine .inr ⟨front, back, ?_, by simpa using hfront, ?_⟩
    · rw [hfirst]
      exact hslots
    · rw [hfirst]
      simpa using hid

/-! ## Slots -/

/-- The own slot, if it is given, or else the first that is. -/
theorem resolveSlots_eq (slots : List UInt64) (build : Nat) :
    resolveSlots slots build
      = if slots.getD build 0 ≠ 0 then slots.getD build 0 else firstGiven slots := by
  rw [resolveSlots, List.getD_eq_getElem?_getD]
  cases slots[build]? with
  | none => rfl
  | some own =>
    simp only [Option.getD_some]
    by_cases hown : own ≠ 0
    · rw [if_pos hown, if_pos hown]
    · rw [if_neg hown, if_neg hown]
      split
      · next hprimary => exact (firstGiven_of_headD hprimary.2).symm
      · rfl

theorem resolveSlots_of_resolves (h : Resolves slots build id) : resolveSlots slots build = id := by
  rw [resolveSlots_eq, List.getD_eq_getElem?_getD]
  cases h with
  | own hslot hid =>
    rw [hslot]
    exact if_pos hid
  | first hslot hslots hfront hid =>
    have hown : ¬ slots[build]?.getD 0 ≠ 0 := by
      cases hs : slots[build]? with
      | none => simp
      | some s => simp [hslot s hs]
    rw [if_neg hown, hslots, firstGiven_append_of_zeros hfront, firstGiven_cons_of_ne hid]
  | none hslots =>
    have hown : ¬ slots[build]?.getD 0 ≠ 0 := by
      cases hs : slots[build]? with
      | none => simp
      | some s => simp [hslots s (List.mem_of_getElem? hs)]
    rw [if_neg hown, firstGiven_of_forall hslots]

/-- Every build gets an identifier by the rule. -/
theorem resolves_resolveSlots (slots : List UInt64) (build : Nat) :
    Resolves slots build (resolveSlots slots build) := by
  rw [resolveSlots_eq, List.getD_eq_getElem?_getD]
  split
  · next hown =>
    cases hs : slots[build]? with
    | none => simp [hs] at hown
    | some s =>
      rw [hs] at hown
      exact .own hs hown
  · next hown =>
    have hslot : ∀ s, slots[build]? = some s → s = 0 := by
      intro s hs
      simpa [hs] using hown
    rcases firstGiven_cases slots with hnone | ⟨front, back, hslots, hfront, hid⟩
    · rw [firstGiven_of_forall hnone]
      exact .none hnone
    · exact .first hslot hslots hfront hid

theorem resolveSlots_eq_iff : resolveSlots slots build = id ↔ Resolves slots build id :=
  ⟨fun h => h ▸ resolves_resolveSlots slots build, resolveSlots_of_resolves⟩

/-- A build gets zero only where nothing is given to any build. -/
theorem resolveSlots_eq_zero_iff : resolveSlots slots build = 0 ↔ ∀ s ∈ slots, s = 0 := by
  rw [resolveSlots_eq_iff]
  constructor
  · intro h
    cases h with
    | own _ hid => exact absurd rfl hid
    | first _ _ _ hid => exact absurd rfl hid
    | none hslots => exact hslots
  · exact .none

/-! ## A fixed number of slots -/

namespace RuntimeId

/-- The slots are the identifiers that fit, and zeros behind them. -/
theorem toList_ofList (ids : List UInt64) :
    (ofList ids : RuntimeId n).slots.toList
      = ids.take n ++ List.replicate (n - ids.length) 0 := by
  refine List.ext_getElem (by simp [ofList]; omega) fun i hi hi' => ?_
  have hin : i < n := by simpa using hi
  by_cases hids : i < ids.length
  · have htake : i < (ids.take n).length := by simp; omega
    simp [ofList, List.getElem_append_left htake, List.getD_eq_getElem?_getD, hids]
  · have htake : (ids.take n).length ≤ i := by simp; omega
    simp [ofList, List.getElem_append_right htake, List.getD_eq_getElem?_getD, hids]

theorem getD_append_zeros (slots : List UInt64) (count build : Nat) :
    (slots ++ List.replicate count 0).getD build 0 = slots.getD build 0 := by
  rw [List.getD_eq_getElem?_getD, List.getD_eq_getElem?_getD]
  by_cases hbuild : build < slots.length
  · rw [List.getElem?_append_left hbuild]
  · rw [List.getElem?_append_right (Nat.le_of_not_lt hbuild), List.getElem?_replicate,
      List.getElem?_eq_none (Nat.le_of_not_lt hbuild)]
    split <;> rfl

/-- Zeros that fill slots up are never seen. -/
theorem resolve_ofList (ids : List UInt64) (build : Nat) :
    (ofList ids : RuntimeId n).resolve build = resolveSlots (ids.take n) build := by
  rw [resolve, toList_ofList, resolveSlots_eq, resolveSlots_eq, getD_append_zeros,
    firstGiven_append_zeros]

end RuntimeId

/-! ## Addresses -/

namespace Identifier

/-- Identifiers for each build have the address of the one that the running build gets. -/
theorem address_perBuild (id : RuntimeId n) (c : AddressContext) :
    (perBuild id).address c = (simple (id.resolve c.runtime.current)).address c := rfl

/-- So have identifiers that were laid into enough slots. -/
theorem address_ofList {ids : List UInt64} (hroom : ids.length ≤ n) (c : AddressContext) :
    (perBuild (.ofList ids : RuntimeId n)).address c
      = (simple (resolveSlots ids c.runtime.current)).address c := by
  rw [address_perBuild, RuntimeId.resolve_ofList, List.take_of_length_le hroom]

end Identifier

namespace CommandLine

/-- The command line prints the addresses of identifiers that were laid into enough slots. -/
theorem answers_resolve {sets : List (List UInt64)} (hroom : ∀ ids ∈ sets, ids.length ≤ n)
    (db : Database) (version : Version) (quiet : Bool) (base : UInt64) (build : Nat) :
    Query.answers db version quiet (.resolve base build sets) = sets.map fun ids =>
      ((Identifier.perBuild (.ofList ids : RuntimeId n)).address
        ((AddressContext.of db ⟨base, version⟩).withRuntime (.fixed build))).map
          (addressLine quiet ids build) := by
  refine List.map_congr_left fun ids hids => ?_
  rw [Identifier.address_ofList (hroom ids hids)]
  rfl

end CommandLine

/-- **One fallback rule, in the library and on the command line.** What a build gets from slots is
told by the rule, and it is zero only if all slots are. Slots in any number get from a list what the
identifiers that fit get; with room for all of them every address, and every failure, is the one of
the identifier that the command line picks, and so is what the command line prints. -/
theorem resolveSlots_agrees (slots : List UInt64) (build n : Nat) :
    (∀ id, resolveSlots slots build = id ↔ Resolves slots build id)
      ∧ (resolveSlots slots build = 0 ↔ ∀ s ∈ slots, s = 0)
      ∧ (RuntimeId.ofList slots : RuntimeId n).resolve build = resolveSlots (slots.take n) build
      ∧ (slots.length ≤ n → ∀ db gameModule,
        (Identifier.perBuild (.ofList slots : RuntimeId n)).address
            ((AddressContext.of db gameModule).withRuntime (.fixed build))
          = (Identifier.simple (resolveSlots slots build)).address
            ((AddressContext.of db gameModule).withRuntime (.fixed build)))
      ∧ ∀ sets : List (List UInt64), (∀ ids ∈ sets, ids.length ≤ n) → ∀ db version quiet base,
        CommandLine.Query.answers db version quiet (.resolve base build sets) = sets.map fun ids =>
          ((Identifier.perBuild (.ofList ids : RuntimeId n)).address
            ((AddressContext.of db ⟨base, version⟩).withRuntime (.fixed build))).map
              (CommandLine.addressLine quiet ids build) := by
  refine ⟨fun id => resolveSlots_eq_iff, resolveSlots_eq_zero_iff,
    RuntimeId.resolve_ofList slots build, ?address, ?printed⟩
  case address =>
    intro hroom db gameModule
    exact Identifier.address_ofList hroom _
  case printed =>
    intro sets hroom db version quiet base
    exact CommandLine.answers_resolve hroom db version quiet base build

/-- The primary slot is empty, and so is the build's own, which is there only once the list is
filled up. -/
theorem resolveSlots_agrees_filled : ([0, 7, 9] : List UInt64).length ≤ 4 ∧ Resolves [0, 7, 9] 3 7
    ∧ (∀ db gameModule, (Identifier.perBuild (.ofList [0, 7, 9] : RuntimeId 4)).address
        ((AddressContext.of db gameModule).withRuntime (.fixed 3))
      = (Identifier.simple 7).address
        ((AddressContext.of db gameModule).withRuntime (.fixed 3)))
    ∧ ∀ db version base,
      CommandLine.Query.answers db version true (.resolve base 3 [[0, 7, 9]])
        = [((Identifier.perBuild (.ofList [0, 7, 9] : RuntimeId 4)).address
          ((AddressContext.of db ⟨base, version⟩).withRuntime (.fixed 3))).map
            (CommandLine.addressLine true [0, 7, 9] 3)] := by
  have hroom : ([0, 7, 9] : List UInt64).length ≤ 4 := by decide
  obtain ⟨hrule, -, -, haddress, hprinted⟩ := resolveSlots_agrees [0, 7, 9] 3 4
  refine ⟨hroom, (hrule 7).1 (by decide), haddress hroom, fun db version base => ?_⟩
  exact hprinted [[0, 7, 9]] (by simp) db version true base

end OffsetAtlas
