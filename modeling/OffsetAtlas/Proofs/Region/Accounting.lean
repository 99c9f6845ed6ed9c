/-
OffsetAtlas.Proofs.Region.Accounting — holds are handles, counted.

`Accounted` is the invariant of a process in a region directory: the holds that the host counts are
exactly the files that the live handles hold, one mention for each handle, and what a handle shows
is what its file has. Gaining a region, failing, letting one handle go and removing a region all
keep it. Nothing here says which files stand in the directory; files that nobody holds may stand
there, too.
-/
import Mathlib.Data.List.Perm.Basic
import OffsetAtlas.Proofs.Region.Tending

namespace OffsetAtlas

open Disk (Grows)
open Region (holdBelow lockedDisk)

namespace Home

variable {c : Home} {n : String} {r : Region} {h h' h'' : Host} {id : FileId} {live : List Region}

/-! ## What letting go does -/

/-- What letting go of one hold leaves. -/
structure Released (c : Home) (n : String) (id : FileId) (h h' : Host) : Prop where
  tended : c.Tended h'.disk h'.holds
  grows : Grows h.disk h'.disk
  holds : h'.holds = h.holds.erase id
  /-- A place is as it was, or has a new lock, or the file that nobody holds any more is gone. -/
  nodes : ∀ q, h'.disk.node? q = h.disk.node? q
    ∨ (h.disk.node? q = none ∧ q = c.lockPlace n)
    ∨ (h'.disk.node? q = none ∧ q = c.regionPlace n ∧ id ∉ h'.holds
        ∧ ∃ f, h.disk.node? q = some (.file f) ∧ f.id = id)
  /-- The last holder deletes the file. -/
  last : id ∉ h'.holds → ∀ f, h'.disk.node? (c.regionPlace n) = some (.file f) → f.id ≠ id

theorem released_releaseHold (ht : c.Tended h.disk h.holds) (hn : c.names n) (id : FileId) :
    c.Released n id h (Region.releaseHold (holdBelow c.dir n id) h) := by
  generalize hx : Region.releaseHold (holdBelow c.dir n id) h = h'
  have hlocked := (ht.locked n).of_subset (List.erase_subset (a := id))
  have hgrows : Grows h.disk (lockedDisk h.disk c.place n) := Grows.touched _ _
  have hnode := node?_locked_regionPlace c h.disk n
  obtain ⟨hholds, ⟨f, hf, hid, hmore, hdisk⟩ | ⟨hkept, hdisk⟩⟩ := releaseHold_cases ht hn hx
  · refine ⟨?_, ?_, hholds, fun q => ?_, fun _ g hg => ?_⟩
    · rw [hdisk, hholds]
      exact hlocked.erase (hnode.trans hf)
    · rw [hdisk]
      exact hgrows.trans (Grows.erase _ _)
    · rw [hdisk, hholds]
      by_cases hq : q = c.regionPlace n
      · subst hq
        exact .inr (.inr ⟨node?_erase_regionPlace c _ n, rfl, hmore, f, hf, hid⟩)
      · rw [Disk.node?_erase_of_ne _ hq]
        exact (node?_locked h.disk c n q).imp_right .inl
    · rw [hdisk, node?_erase_regionPlace] at hg
      cases hg
  · refine ⟨?_, ?_, hholds, fun q => ?_, fun hmore g hg => ?_⟩
    · rw [hdisk, hholds]
      exact hlocked
    · rw [hdisk]
      exact hgrows
    · rw [hdisk]
      exact (node?_locked h.disk c n q).imp_right .inl
    · rw [hdisk, hnode] at hg
      rw [hholds] at hmore
      exact (hkept.resolve_right hmore) g hg

/-- Letting go of a region that is held lets go of its hold. -/
theorem released_release (ht : c.Tended h.disk h.holds) (hn : c.names n)
    (hr : r.hold? = some (holdBelow c.dir n id)) : c.Released n id h (r.release h) := by
  rw [Region.release, hr]
  exact released_releaseHold ht hn id

/-- What stands at a place where only the lock was made before. -/
theorem Released.after_lock {h₀ : Host} (hrel : c.Released n id h h') {q : Place}
    (hq : h.disk.node? q = (lockedDisk h₀.disk c.place n).node? q) :
    h'.disk.node? q = h₀.disk.node? q
      ∨ (h₀.disk.node? q = none ∧ q = c.lockPlace n)
      ∨ (h'.disk.node? q = none ∧ q = c.regionPlace n ∧ id ∉ h'.holds
          ∧ ∃ f, h.disk.node? q = some (.file f) ∧ f.id = id) := by
  rcases hrel.nodes q with hsame | ⟨hnone, hlock⟩ | hgone
  · rw [hsame, hq]
    exact (node?_locked h₀.disk c n q).imp_right fun hl => .inl ⟨hl.1, hl.2⟩
  · rcases node?_locked h₀.disk c n q with hl | hl
    · exact .inr (.inl ⟨hl.symm.trans (hq.symm.trans hnone), hlock⟩)
    · exact .inr (.inl ⟨hl.1, hlock⟩)
  · exact .inr (.inr hgone)

/-! ## What a gained region brings -/

theorem Gained.tended (ht : c.Tended h.disk h.holds) (hg : c.Gained r h h') :
    c.Tended h'.disk h'.holds := by
  cases hg with
  | alone _ _ hd hh => rwa [hd, hh]
  | made hn hnode hb hd hh =>
    rw [hd, hh]
    refine (ht.locked _).putNew ?_ _
    rw [node?_locked_regionPlace, hnode]
    simp
  | @attached n f hn hnode hb hbytes hd hh =>
    rw [hd, hh]
    refine (ht.locked _).hold (q := c.regionPlace n) ?_
    rw [node?_locked_regionPlace, hnode]

theorem Gained.grows (hg : c.Gained r h h') : Grows h.disk h'.disk := by
  cases hg with
  | alone _ _ hd => exact hd ▸ Grows.refl _
  | made _ _ _ hd => exact hd ▸ (Grows.touched _ _).trans (Grows.putNew _ _ _)
  | attached _ _ _ _ hd => exact hd ▸ Grows.touched _ _

/-- A gained region shows what its file has. -/
theorem Gained.current (ht : c.Tended h.disk h.holds) (hg : c.Gained r h h') :
    r.Current h'.disk := by
  have ht' := hg.tended ht
  cases hg with
  | alone _ hr hd => rwa [hd]
  | @made n hn hnode hb hd hh =>
    have hback : r.backingFile? = some ⟨(lockedDisk h.disk c.place n).nextId⟩ := by
      rw [Region.backingFile?, hb]
      rfl
    have hput : h'.disk.node? (c.regionPlace n)
        = some (.file ⟨⟨(lockedDisk h.disk c.place n).nextId⟩, r.bytes⟩) := by
      rw [hd, node?_putNew_regionPlace]
    refine ⟨fun id hid => ?_, fun q f hq hid => ?_⟩
    · obtain rfl := Option.some.inj (hback.symm.trans hid)
      exact ht'.sane.given hput
    · obtain rfl := ht'.sane.alone hput hq (Option.some.inj (hback.symm.trans hid))
      cases hput.symm.trans hq
      rfl
  | @attached n f hn hnode hb hbytes hd hh =>
    have hback : r.backingFile? = some f.id := by
      rw [Region.backingFile?, hb]
      rfl
    have hstays : h'.disk.node? (c.regionPlace n) = some (.file f) := by
      rw [hd, node?_locked_regionPlace, hnode]
    refine ⟨fun id hid => ?_, fun q g hq hid => ?_⟩
    · obtain rfl := Option.some.inj (hback.symm.trans hid)
      exact ht'.sane.given hstays
    · obtain rfl := ht'.sane.alone hstays hq (Option.some.inj (hback.symm.trans hid))
      cases hstays.symm.trans hq
      exact hbytes

theorem heldFile?_of_backing {hold : Hold} (hb : r.backing = .held hold) :
    r.heldFile? = some hold.file := by
  rw [Region.heldFile?, Region.hold?, hb]
  rfl

theorem Gained.holds (hg : c.Gained r h h') : h'.holds = r.heldFile?.toList ++ h.holds := by
  cases hg with
  | alone hr _ _ hh =>
    rw [hh, Region.heldFile?, hr]
    rfl
  | made _ _ hb _ hh =>
    rw [hh, heldFile?_of_backing hb]
    rfl
  | attached _ _ hb _ _ hh =>
    rw [hh, heldFile?_of_backing hb]
    rfl

/-- A gained region is held below the directory, if it is held. -/
theorem Gained.below (hg : c.Gained r h h') {hold : Hold} (hr : r.hold? = some hold) :
    ∃ n, c.names n ∧ hold = holdBelow c.dir n hold.file := by
  cases hg with
  | alone hnone => exact nomatch hnone.symm.trans hr
  | made hn _ hb =>
    rw [Region.hold?, hb] at hr
    obtain rfl := Option.some.inj hr
    exact ⟨_, hn, rfl⟩
  | attached hn _ hb =>
    rw [Region.hold?, hb] at hr
    obtain rfl := Option.some.inj hr
    exact ⟨_, hn, rfl⟩

/-- Letting go of what was just gained leaves the host untouched. The hold on a new file is its only
one, and the hold on a file that was there is the last one only if nobody held it before. -/
theorem Gained.release (ht : c.Tended h.disk h.holds) (hg : c.Gained r h h')
    (hq : h'.Quiet h'') : c.Untouched h (r.release h'') := by
  have ht'' : c.Tended h''.disk h''.holds := (hg.tended ht).quiet hq
  have hgrows : Grows h.disk h''.disk := hq.disk ▸ hg.grows
  cases hg with
  | alone hr _ hd hh =>
    rw [Region.release, hr]
    exact .of_quiet ht ⟨hq.disk.trans hd, hq.holds.trans hh⟩
  | @made n hn hnode hb hd hh =>
    have hrel := released_release ht'' hn (by rw [Region.hold?, hb])
    have hholds : (r.release h'').holds = h.holds := by
      rw [hrel.holds, hq.holds, hh, List.erase_cons_head]
    have hput : h''.disk.node? (c.regionPlace n)
        = some (.file ⟨⟨(lockedDisk h.disk c.place n).nextId⟩, r.bytes⟩) := by
      rw [hq.disk, hd, node?_putNew_regionPlace]
    have honly : (⟨(lockedDisk h.disk c.place n).nextId⟩ : FileId) ∉ h.holds := fun hmem =>
      absurd (ht.given _ hmem) (Nat.not_lt.2 (Grows.touched h.disk (c.place ++ [lockName n])).next)
    refine ⟨hrel.tended, hgrows.trans hrel.grows, hholds, fun q => ?_⟩
    by_cases hplace : q = c.regionPlace n
    · subst hplace
      rcases hrel.nodes (c.regionPlace n) with hsame | ⟨hnone, -⟩ | ⟨hgone, -⟩
      · exact absurd rfl (hrel.last (hholds ▸ honly) _ (hsame.trans hput))
      · exact nomatch hnone.symm.trans hput
      · exact .inl (hgone.trans hnode.symm)
    · have hbefore : h''.disk.node? q = (lockedDisk h.disk c.place n).node? q := by
        rw [hq.disk, hd, Disk.node?_putNew_of_ne _ _ hplace]
      rcases hrel.after_lock hbefore with hsame | ⟨hnone, hlock⟩ | ⟨-, hregion, -⟩
      · exact .inl hsame
      · exact .inr (.inl ⟨hnone, n, hn, hlock⟩)
      · exact absurd hregion hplace
  | @attached n f hn hnode hb hbytes hd hh =>
    have hrel := released_release ht'' hn (by rw [Region.hold?, hb])
    have hholds : (r.release h'').holds = h.holds := by
      rw [hrel.holds, hq.holds, hh, List.erase_cons_head]
    refine ⟨hrel.tended, hgrows.trans hrel.grows, hholds, fun q => ?_⟩
    have hbefore : h''.disk.node? q = (lockedDisk h.disk c.place n).node? q := by
      rw [hq.disk, hd]
    rcases hrel.after_lock hbefore with hsame | ⟨hnone, hlock⟩ | ⟨hgone, rfl, hmore, g, hg, hid⟩
    · exact .inl hsame
    · exact .inr (.inl ⟨hnone, n, hn, hlock⟩)
    · rw [hbefore, node?_locked_regionPlace] at hg
      exact .inr (.inr ⟨hgone, ⟨n, hn, rfl⟩, g, hg, hid ▸ hholds ▸ hmore⟩)

/-! ## Accounts -/

/-- The holds are those of the live handles, each counted once, and every handle is current. -/
structure Accounted (c : Home) (h : Host) (live : List Region) : Prop where
  tended : c.Tended h.disk h.holds
  counted : h.holds.Perm (live.filterMap Region.heldFile?)
  current : ∀ r ∈ live, r.Current h.disk
  below : ∀ r ∈ live, ∀ hold, r.hold? = some hold →
    ∃ n, c.names n ∧ hold = holdBelow c.dir n hold.file

theorem Accounted.mem_holds (ha : c.Accounted h live) (hr : r ∈ live) {hold : Hold}
    (hh : r.hold? = some hold) : hold.file ∈ h.holds := by
  refine ha.counted.mem_iff.2 (List.mem_filterMap.2 ⟨r, hr, ?_⟩)
  rw [Region.heldFile?, hh]
  rfl

/-- Every hold is some live handle's. -/
theorem Accounted.holder (ha : c.Accounted h live) (hid : id ∈ h.holds) :
    ∃ r ∈ live, ∃ n, c.names n ∧ r.hold? = some (holdBelow c.dir n id) := by
  obtain ⟨r, hr, hfile⟩ := List.mem_filterMap.1 (ha.counted.mem_iff.1 hid)
  obtain ⟨hold, hhold, rfl⟩ := Option.map_eq_some_iff.1 hfile
  obtain ⟨n, hn, hbelow⟩ := ha.below r hr hold hhold
  exact ⟨r, hr, n, hn, hbelow ▸ hhold⟩

theorem Accounted.gained (ha : c.Accounted h live) (hg : c.Gained r h h') :
    c.Accounted h' (r :: live) where
  tended := hg.tended ha.tended
  counted := by
    rw [hg.holds, List.filterMap_cons]
    cases r.heldFile? with
    | none => exact ha.counted
    | some id => exact ha.counted.cons id
  current r' hr' := by
    rcases List.mem_cons.1 hr' with rfl | hr'
    · exact hg.current ha.tended
    · exact (ha.current r' hr').grows hg.grows
  below r' hr' hold hh := by
    rcases List.mem_cons.1 hr' with rfl | hr'
    · exact hg.below hh
    · exact ha.below r' hr' hold hh

theorem Accounted.untouched (ha : c.Accounted h live) (hu : c.Untouched h h') :
    c.Accounted h' live where
  tended := hu.tended
  counted := hu.holds ▸ ha.counted
  current r hr := (ha.current r hr).grows hu.grows
  below := ha.below

/-- Letting one handle go. -/
theorem Accounted.release {i : Nat} (ha : c.Accounted h live) (hi : live[i]? = some r) :
    c.Accounted (r.release h) (live.eraseIdx i) := by
  obtain ⟨hlt, rfl⟩ := List.getElem?_eq_some_iff.1 hi
  have hsub : live.eraseIdx i ⊆ live := (List.eraseIdx_sublist live i).subset
  have hperm := ((List.getElem_cons_eraseIdx_perm hlt).symm.filterMap Region.heldFile?)
  cases hhold : live[i].hold? with
  | none =>
    have hfile : live[i].heldFile? = none := by
      rw [Region.heldFile?, hhold]
      rfl
    rw [List.filterMap_cons, hfile] at hperm
    rw [Region.release, hhold]
    exact ⟨ha.tended, ha.counted.trans hperm, fun r hr => ha.current r (hsub hr),
      fun r hr => ha.below r (hsub hr)⟩
  | some hold =>
    have hfile : live[i].heldFile? = some hold.file := by
      rw [Region.heldFile?, hhold]
      rfl
    rw [List.filterMap_cons, hfile] at hperm
    obtain ⟨n, hn, hbelow⟩ := ha.below _ (List.getElem_mem hlt) hold hhold
    have hrel := released_release ha.tended hn (hhold.trans (congrArg some hbelow))
    refine ⟨hrel.tended, ?_, fun r hr => (ha.current r (hsub hr)).grows hrel.grows,
      fun r hr => ha.below r (hsub hr)⟩
    rw [hrel.holds]
    exact ((ha.counted.trans hperm).erase hold.file).trans (by rw [List.erase_cons_head])

/-- Removing a region leaves the holds to those who have them. -/
theorem Accounted.remove (ha : c.Accounted h live) (hn : c.names n) :
    c.Accounted (Region.remove c.dir n h).2 live := by
  obtain ⟨ht, hgrows, hholds, -⟩ := remove_cases ha.tended hn rfl
  exact ⟨ht, hholds ▸ ha.counted, fun r hr => (ha.current r hr).grows hgrows, ha.below⟩

end Home

end OffsetAtlas
