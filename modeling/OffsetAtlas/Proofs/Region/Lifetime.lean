/-
OffsetAtlas.Proofs.Region.Lifetime — a region lives as long as somebody holds it.

A process calls for regions, drops the handles it got in any order, and removes regions by name.
Which files stand in the directory is then decided by its live handles alone: a file stands under a
name if and only if a live handle holds that very file, unless the region was removed meanwhile
(`Lifetime.stands`). A handle on a file that was removed neither keeps nor deletes a newer file of
the same name, since the two files have different identities. A call that fails while it fills a
block has made a file and written into it, and still leaves none (`Lifetime.undone`).

`Use.apply` is what one use does, and a `Ledger` adds what the statement has to talk about: the
files that removing took away, and every call that handed out a handle. `Settled` is the invariant.
-/
import OffsetAtlas.Proofs.Region.Accounting

namespace OffsetAtlas

open Region (Filling holdBelow lockedDisk zeros)

/-! ## Uses -/

/-- A host and the handles that a process has on it, the newest first. -/
structure Holdings where
  host : Host
  live : List Region

/-- What a process does with the regions of one directory. -/
inductive Use
  | call (name : String) (size : Nat) (filling : Filling)
  | drop (i : Nat)
  | remove (name : String)

namespace Use

/-- What a use makes of a process. -/
def apply (dir : Path) : Use → Holdings → Holdings
  | .call name size filling, s =>
    match Region.createOrAttachBy (.shared dir) name size filling s.host with
    | (.ok r, h) => ⟨h, r :: s.live⟩
    | (.error _, h) => ⟨h, s.live⟩
  | .drop i, s =>
    match s.live[i]? with
    | some r => ⟨r.release s.host, s.live.eraseIdx i⟩
    | none => s
  | .remove name, s => ⟨(Region.remove dir name s.host).2, s.live⟩

/-- A use that speaks of regions of the home only. -/
def Within (c : Home) : Use → Prop
  | .call name _ _ => c.names name
  | .drop _ => True
  | .remove name => c.names name

end Use

/-- A handle with the call that handed it out. -/
structure Handing where
  size : Nat
  filling : Filling
  region : Region

/-- A call that made the file of a handle. The handle has as many bytes as the call asked for, and
they are what its filling left of so many zeros. -/
structure Handing.Made (w : Handing) (r : Region) : Prop where
  owner : w.region.role = .owner
  same : w.region.hold? = r.hold?
  size : r.bytes.size = w.size
  bytes : ∀ blank : ByteArray, octets blank = List.replicate w.size 0 →
    (w.filling.run blank).1 = .ok () ∧ r.bytes = (w.filling.run blank).2.get

/-- A process, the files that removing has taken away, and what all calls have handed out. -/
structure Ledger extends Holdings where
  removed : List FileId
  handed : List Handing

namespace Ledger

/-- The file that a use takes away whoever holds it. -/
def removal (dir : Path) (s : Ledger) : Use → List FileId
  | .remove name => ((s.host.disk.file? (dir.join name)).map File.id).toList
  | _ => []

/-- What a use hands out. -/
def handing (dir : Path) (s : Ledger) : Use → List Handing
  | .call name size filling =>
    match (Region.createOrAttachBy (.shared dir) name size filling s.host).1 with
    | .ok r => [⟨size, filling, r⟩]
    | .error _ => []
  | _ => []

def step (dir : Path) (s : Ledger) (u : Use) : Ledger :=
  ⟨u.apply dir s.toHoldings, s.removal dir u ++ s.removed, s.handing dir u ++ s.handed⟩

/-- A process that has done nothing yet. -/
def start (h : Host) : Ledger :=
  ⟨⟨h, []⟩, [], []⟩

end Ledger

namespace Home

variable {c : Home} {s : Ledger} {h : Host} {n m : String} {f : File} {r : Region} {id : FileId}

/-- A directory in order, in which no region stands and nothing is held. -/
structure Vacant (c : Home) (h : Host) : Prop where
  tended : c.Tended h.disk h.holds
  unheld : h.holds = []
  vacant : ∀ {n}, c.names n → h.disk.node? (c.regionPlace n) = none

/-- What holds of the regions of a process at any time. -/
structure Lifetime (c : Home) (s : Ledger) : Prop where
  /-- The file under a name is the one that a live handle holds and no removal has taken away. -/
  stands : ∀ {n}, c.names n → ∀ id,
    (∃ f, s.host.disk.file? (c.dir.join n) = some f ∧ f.id = id)
      ↔ id ∉ s.removed ∧ ∃ r ∈ s.live, r.hold? = some (holdBelow c.dir n id)
  /-- Where no file stands, a call has a block of zeros filled and owns it, or fails as the filling
  does. -/
  fills : ∀ {n}, c.names n → s.host.disk.file? (c.dir.join n) = none → ∀ size filling,
    ∀ blank : ByteArray, octets blank = List.replicate size 0 → ∃ id,
      (Region.createOrAttachBy (.shared c.dir) n size filling s.host).1
        = (filling.run blank).1.map fun _ =>
          ⟨n, .owner, (filling.run blank).2.get, .held (holdBelow c.dir n id)⟩
  /-- No file stands there afterwards if the filling fails, whatever it has written. -/
  undone : ∀ {n}, c.names n → s.host.disk.file? (c.dir.join n) = none → ∀ size filling e h,
    Region.createOrAttachBy (.shared c.dir) n size filling s.host = (.error e, h) →
      h.disk.file? (c.dir.join n) = none
  /-- Where a file stands, no filling is run: it does not matter which it is. -/
  unfilled : ∀ {n f}, c.names n → s.host.disk.file? (c.dir.join n) = some f →
    ∀ size filling filling', Region.createOrAttachBy (.shared c.dir) n size filling s.host
      = Region.createOrAttachBy (.shared c.dir) n size filling' s.host
  /-- A call for the file of a live handle attaches to it if it asks for as many bytes as the owner
  of the file has asked for, and fails otherwise. -/
  attaches : ∀ r ∈ s.live, ∀ {n id}, c.names n → r.hold? = some (holdBelow c.dir n id) →
    id ∉ s.removed → ∀ w ∈ s.handed, w.Made r → ∀ size filling,
      (Region.createOrAttachBy (.shared c.dir) n size filling s.host).1
        = if size = w.size then .ok ⟨n, .attached, r.bytes, .held (holdBelow c.dir n id)⟩
          else .error (.regionSizeMismatch n size w.size)
  /-- A live handle is as it was handed out. -/
  unchanged : ∀ r ∈ s.live, ∃ w ∈ s.handed, w.region = r
  /-- A live handle has the bytes with which the owner of its file filled it. -/
  written : ∀ r ∈ s.live, ∃ w ∈ s.handed, w.Made r
  /-- Looking at the files again shows a live handle nothing else. -/
  shown : ∀ r ∈ s.live, ∀ q f, s.host.disk.node? q = some (.file f) → Session.reread f r = r

/-! ## The invariant -/

theorem eq_zeros_of_octets {size : Nat} {blank : ByteArray}
    (h : octets blank = List.replicate size 0) : blank = zeros size :=
  ByteArray.ext (Array.ext' (h.trans Array.toList_replicate.symm))

/-- Where nothing stands the next call has a block of zeros filled, and owns it if that succeeds. -/
theorem Tended.fills (ht : c.Tended h.disk h.holds) (hn : c.names n)
    (hnone : h.disk.node? (c.regionPlace n) = none) (size : Nat) (filling : Filling)
    {blank : ByteArray} (hblank : octets blank = List.replicate size 0) : ∃ id,
      (Region.createOrAttachBy (.shared c.dir) n size filling h).1
        = (filling.run blank).1.map fun _ =>
          ⟨n, .owner, (filling.run blank).2.get, .held (holdBelow c.dir n id)⟩ := by
  obtain rfl := eq_zeros_of_octets hblank
  refine ⟨⟨(lockedDisk h.disk c.place n).nextId⟩, ?_⟩
  rw [Region.createOrAttachBy_of_none (ht.ready hn) hnone]
  rcases filling.run (zeros size) with ⟨e | ⟨⟩, left⟩
  · rfl
  · rfl

/-- A call that has filled a new file has made it. -/
theorem made_of_run {size : Nat} {filling : Filling} {left : Thunk ByteArray} {hold : Hold}
    (hrun : filling.run (zeros size) = (.ok (), left)) :
    Handing.Made ⟨size, filling, ⟨n, .owner, left.get, .held hold⟩⟩
      ⟨n, .owner, left.get, .held hold⟩ where
  owner := rfl
  same := rfl
  size := by
    have hsize := filling.size_run (zeros size)
    rw [hrun] at hsize
    exact hsize.trans (Region.size_zeros size)
  bytes blank hblank := by
    obtain rfl := eq_zeros_of_octets hblank
    rw [hrun]
    exact ⟨rfl, rfl⟩

/-- Handles and files correspond, up to the files that were taken away. -/
structure Settled (c : Home) (s : Ledger) : Prop where
  accounted : c.Accounted s.host s.live
  /-- Under the names stand files that are held, and none that was taken away. -/
  kept : ∀ {n}, c.names n → ∀ node, s.host.disk.node? (c.regionPlace n) = some node →
    ∃ f, node = .file f ∧ f.id ∈ s.host.holds ∧ f.id ∉ s.removed
  /-- The file of a handle stands under its name until it is taken away. -/
  here : ∀ r ∈ s.live, ∃ n id, c.names n ∧ r.hold? = some (holdBelow c.dir n id)
    ∧ (id ∉ s.removed → ∃ f, s.host.disk.node? (c.regionPlace n) = some (.file f) ∧ f.id = id)
  given : ∀ id ∈ s.removed, id.index < s.host.disk.nextId
  unchanged : ∀ r ∈ s.live, ∃ w ∈ s.handed, w.region = r
  written : ∀ r ∈ s.live, ∃ w ∈ s.handed, w.Made r

theorem Vacant.settled (hv : c.Vacant h) : c.Settled (.start h) where
  accounted := ⟨hv.tended, by simp [Ledger.start, hv.unheld], by simp [Ledger.start],
    by simp [Ledger.start]⟩
  kept hn node hnode := nomatch (hv.vacant hn).symm.trans hnode
  here := by simp [Ledger.start]
  given := by simp [Ledger.start]
  unchanged := by simp [Ledger.start]
  written := by simp [Ledger.start]

theorem Settled.none_or_file (hs : c.Settled s) (hn : c.names n) :
    s.host.disk.node? (c.regionPlace n) = none
      ∨ ∃ f, s.host.disk.node? (c.regionPlace n) = some (.file f) := by
  cases hnode : s.host.disk.node? (c.regionPlace n) with
  | none => exact .inl rfl
  | some node =>
    obtain ⟨f, rfl, -⟩ := hs.kept hn node hnode
    exact .inr ⟨f, rfl⟩

theorem Settled.node?_of_file?_none (hs : c.Settled s) (hn : c.names n)
    (hfile : s.host.disk.file? (c.dir.join n) = none) :
    s.host.disk.node? (c.regionPlace n) = none := by
  refine (hs.none_or_file hn).resolve_right fun ⟨f, hf⟩ => ?_
  rw [(hs.accounted.tended.file?_iff hn).2 hf] at hfile
  cases hfile

/-- The file under a name is held under that name. -/
theorem Settled.holder (hs : c.Settled s) (hn : c.names n)
    (hf : s.host.disk.node? (c.regionPlace n) = some (.file f)) :
    ∃ r ∈ s.live, r.hold? = some (holdBelow c.dir n f.id) := by
  obtain ⟨g, hg, hheld, hstill⟩ := hs.kept hn _ hf
  cases hg
  obtain ⟨r, hr, m, -, hhold⟩ := hs.accounted.holder hheld
  obtain ⟨m', id, -, hhold', hthere⟩ := hs.here r hr
  obtain rfl : f.id = id := congrArg Hold.file (Option.some.inj (hhold.symm.trans hhold'))
  -- the holder's file stands under the holder's name, and an identity stands in one place only
  obtain ⟨g, hg, hid⟩ := hthere hstill
  obtain rfl := regionPlace_injective (hs.accounted.tended.sane.alone hg hf hid)
  exact ⟨r, hr, hhold'⟩

/-! ## Steps -/

/-- A call that fails changes no region. -/
theorem Settled.untouched (hs : c.Settled s) {h' : Host} (hu : c.Untouched s.host h') :
    c.Settled ⟨⟨h', s.live⟩, s.removed, s.handed⟩ := by
  have hnodes : ∀ m, c.names m →
      h'.disk.node? (c.regionPlace m) = s.host.disk.node? (c.regionPlace m) := by
    intro m hm
    rcases hu.nodes (c.regionPlace m) with hsame | ⟨-, n, hn, hlock⟩ | ⟨-, -, f, hf, hloose⟩
    · exact hsame
    · exact absurd hlock (regionPlace_ne_lockPlace hm hn)
    · obtain ⟨g, hg, hheld, -⟩ := hs.kept hm _ hf
      cases hg
      exact absurd hheld hloose
  refine ⟨hs.accounted.untouched hu, fun hm node hnode => ?_, fun r hr => ?_,
    fun id hid => Nat.lt_of_lt_of_le (hs.given id hid) hu.grows.next, hs.unchanged, hs.written⟩
  · rw [hu.holds]
    exact hs.kept hm node ((hnodes _ hm).symm.trans hnode)
  · obtain ⟨m, id, hm, hhold, hthere⟩ := hs.here r hr
    exact ⟨m, id, hm, hhold, fun hid => hnodes m hm ▸ hthere hid⟩

/-- A call that hands out a handle on the file under a name, which is there or new. -/
theorem Settled.gained (hs : c.Settled s) (hn : c.names n) {h' : Host} {w : Handing}
    (hg : c.Gained w.region s.host h') (hhold : w.region.hold? = some (holdBelow c.dir n id))
    (hput : ∃ f, h'.disk.node? (c.regionPlace n) = some (.file f) ∧ f.id = id)
    (hnew : id ∉ s.removed)
    (hstay : ∀ m, c.names m → ∀ node, s.host.disk.node? (c.regionPlace m) = some node →
      h'.disk.node? (c.regionPlace m) = some node)
    (hother : ∀ m, c.names m → m ≠ n →
      h'.disk.node? (c.regionPlace m) = s.host.disk.node? (c.regionPlace m))
    (hwritten : ∃ w' ∈ w :: s.handed, w'.Made w.region) :
    c.Settled ⟨⟨h', w.region :: s.live⟩, s.removed, w :: s.handed⟩ := by
  have hholds : h'.holds = id :: s.host.holds := by
    rw [hg.holds, Region.heldFile?, hhold]
    rfl
  refine ⟨hs.accounted.gained hg, fun {m} hm node hnode => ?_, fun r hr => ?_,
    fun id hid => Nat.lt_of_lt_of_le (hs.given id hid) hg.grows.next, fun r hr => ?_,
    fun r hr => ?_⟩
  · rw [hholds]
    by_cases hmn : m = n
    · subst hmn
      obtain ⟨f, hf, rfl⟩ := hput
      obtain rfl := Option.some.inj (hf.symm.trans hnode)
      exact ⟨f, rfl, List.mem_cons_self, hnew⟩
    · obtain ⟨g, hg, hheld, hstill⟩ := hs.kept hm node ((hother m hm hmn).symm.trans hnode)
      exact ⟨g, hg, List.mem_cons_of_mem _ hheld, hstill⟩
  · rcases List.mem_cons.1 hr with rfl | hr
    · exact ⟨n, id, hn, hhold, fun _ => hput⟩
    · obtain ⟨m, id', hm, hhold', hthere⟩ := hs.here r hr
      refine ⟨m, id', hm, hhold', fun hid => ?_⟩
      obtain ⟨f, hf, hfid⟩ := hthere hid
      exact ⟨f, hstay m hm _ hf, hfid⟩
  · rcases List.mem_cons.1 hr with rfl | hr
    · exact ⟨w, List.mem_cons_self, rfl⟩
    · obtain ⟨w', hw', hsame⟩ := hs.unchanged r hr
      exact ⟨w', List.mem_cons_of_mem _ hw', hsame⟩
  · rcases List.mem_cons.1 hr with rfl | hr
    · exact hwritten
    · obtain ⟨w', hw', hw'r⟩ := hs.written r hr
      exact ⟨w', List.mem_cons_of_mem _ hw', hw'r⟩

/-- Making a lock leaves what stands under the names. -/
theorem node?_locked_of_names {m : String} (d : Disk) (hn : c.names n) (hm : c.names m) :
    (lockedDisk d c.place n).node? (c.regionPlace m) = d.node? (c.regionPlace m) :=
  (node?_locked d c n _).resolve_right fun hl => regionPlace_ne_lockPlace hm hn hl.2

/-- A call that finds nothing under its name makes the file, or fails to fill it. -/
theorem Settled.call_of_none (hs : c.Settled s) (hn : c.names n)
    (hnode : s.host.disk.node? (c.regionPlace n) = none) (size : Nat) (filling : Filling) :
    c.Settled (s.step c.dir (.call n size filling)) := by
  have hsettles := settles_createOrAttachBy hs.accounted.tended hn size filling
  simp only [Ledger.step, Use.apply, Ledger.handing, Ledger.removal, List.nil_append]
  rw [Region.createOrAttachBy_of_none (hs.accounted.tended.ready hn) hnode] at hsettles ⊢
  rcases hrun : filling.run (zeros size) with ⟨e | ⟨⟩, left⟩ <;> rw [hrun] at hsettles
  · exact hs.untouched (hsettles.failed e rfl)
  · have hput := node?_putNew_regionPlace c (lockedDisk s.host.disk c.place n) n left.get
    have hother : ∀ m, c.names m → m ≠ n →
        ((lockedDisk s.host.disk c.place n).putNew (c.regionPlace n) left.get).2.node?
          (c.regionPlace m) = s.host.disk.node? (c.regionPlace m) := by
      intro m hm hmn
      rw [Disk.node?_putNew_of_ne _ _ fun he => hmn (regionPlace_injective he),
        node?_locked_of_names _ hn hm]
    refine hs.gained (w := ⟨size, filling, _⟩) hn (hsettles.gained _ rfl) rfl ⟨_, hput, rfl⟩
      (fun hmem => ?_) (fun m hm node hm' => ?_) hother
      ⟨_, List.mem_cons_self, made_of_run hrun⟩
    · exact absurd (hs.given _ hmem)
        (Nat.not_lt.2 (Disk.Grows.touched s.host.disk (c.place ++ [lockName n])).next)
    · by_cases hmn : m = n
      · subst hmn
        cases hnode.symm.trans hm'
      · exact (hother m hm hmn).trans hm'

/-- The file of a live handle has the handle's bytes. -/
theorem Settled.contents_eq (hs : c.Settled s) (hr : r ∈ s.live)
    (hnode : s.host.disk.node? (c.regionPlace n) = some (.file f))
    (hhold : r.hold? = some (holdBelow c.dir n f.id)) : f.contents = r.bytes :=
  (hs.accounted.current r hr).same _ f hnode (Region.backingFile?_of_hold hhold)

/-- A call that finds a file under its name attaches to it, or the sizes differ. -/
theorem Settled.call_of_file (hs : c.Settled s) (hn : c.names n)
    (hnode : s.host.disk.node? (c.regionPlace n) = some (.file f)) (size : Nat)
    (filling : Filling) : c.Settled (s.step c.dir (.call n size filling)) := by
  have hsettles := settles_createOrAttachBy hs.accounted.tended hn size filling
  simp only [Ledger.step, Use.apply, Ledger.handing, Ledger.removal, List.nil_append]
  rw [Region.createOrAttachBy_of_file (hs.accounted.tended.ready hn) hnode] at hsettles ⊢
  by_cases hsize : f.contents.size = size
  · simp only [if_pos hsize] at hsettles ⊢
    obtain ⟨g, hg, -, hstill⟩ := hs.kept hn _ hnode
    cases hg
    -- the file has what its owner wrote, because a live handle on it shows just that
    obtain ⟨r, hr, hhold⟩ := hs.holder hn hnode
    obtain ⟨w, hw, hmade⟩ := hs.written r hr
    have hsame := hs.contents_eq hr hnode hhold
    have hlock : ∀ m, c.names m → (lockedDisk s.host.disk c.place n).node? (c.regionPlace m)
        = s.host.disk.node? (c.regionPlace m) := fun m hm => node?_locked_of_names _ hn hm
    refine hs.gained (w := ⟨size, filling, _⟩) hn (hsettles.gained _ rfl) rfl
      ⟨f, (hlock n hn).trans hnode, rfl⟩ hstill (fun m hm node hm' => (hlock m hm).trans hm')
      (fun m hm _ => hlock m hm) ⟨w, List.mem_cons_of_mem _ hw, ?_⟩
    exact ⟨hmade.owner, hmade.same.trans hhold, (congrArg ByteArray.size hsame).trans hmade.size,
      fun blank hblank => (hmade.bytes blank hblank).imp_right hsame.trans⟩
  · simp only [if_neg hsize] at hsettles ⊢
    exact hs.untouched (hsettles.failed _ rfl)

theorem Settled.call (hs : c.Settled s) (hn : c.names n) (size : Nat) (filling : Filling) :
    c.Settled (s.step c.dir (.call n size filling)) := by
  rcases hs.none_or_file hn with hnode | ⟨f, hnode⟩
  · exact hs.call_of_none hn hnode size filling
  · exact hs.call_of_file hn hnode size filling

theorem Settled.drop (hs : c.Settled s) (i : Nat) : c.Settled (s.step c.dir (.drop i)) := by
  simp only [Ledger.step, Use.apply, Ledger.handing, Ledger.removal, List.nil_append]
  cases hi : s.live[i]? with
  | none => exact hs
  | some r =>
    have hacc := hs.accounted.release hi
    have hsub : s.live.eraseIdx i ⊆ s.live := (List.eraseIdx_sublist s.live i).subset
    obtain ⟨n, id, hn, hhold, hthere⟩ := hs.here r (List.mem_of_getElem? hi)
    have hrel := released_release hs.accounted.tended hn hhold
    refine ⟨hacc, fun {m} hm node hnode => ?_, fun r' hr' => ?_,
      fun id hid => Nat.lt_of_lt_of_le (hs.given id hid) hrel.grows.next,
      fun r' hr' => hs.unchanged r' (hsub hr'), fun r' hr' => hs.written r' (hsub hr')⟩
    · -- what stands there now stood there before, and if it is the file of the handle that went
      -- then this was not the last one
      have hbefore : s.host.disk.node? (c.regionPlace m) = some node := by
        rcases hrel.nodes (c.regionPlace m) with hsame | ⟨-, hlock⟩ | ⟨hgone, -⟩
        · exact hsame.symm.trans hnode
        · exact absurd hlock (regionPlace_ne_lockPlace hm hn)
        · cases hgone.symm.trans hnode
      obtain ⟨f, rfl, hheld, hstill⟩ := hs.kept hm node hbefore
      refine ⟨f, rfl, ?_, hstill⟩
      by_cases hid : f.id = id
      · obtain ⟨g, hg, hgid⟩ := hthere (hid ▸ hstill)
        obtain rfl := regionPlace_injective
          (hs.accounted.tended.sane.alone hbefore hg (hid.trans hgid.symm))
        rw [hid]
        exact Decidable.byContradiction fun hmore => hrel.last hmore f hnode hid
      · rw [hrel.holds]
        exact (List.mem_erase_of_ne hid).2 hheld
    · obtain ⟨m, id', hm, hhold', hthere'⟩ := hs.here r' (hsub hr')
      refine ⟨m, id', hm, hhold', fun hid' => ?_⟩
      obtain ⟨f, hf, hfid⟩ := hthere' hid'
      refine ⟨f, ?_, hfid⟩
      rcases hrel.nodes (c.regionPlace m) with hsame | ⟨-, hlock⟩ | ⟨-, -, hmore, g, hg, hgid⟩
      · exact hsame.trans hf
      · exact absurd hlock (regionPlace_ne_lockPlace hm hn)
      · -- the file that went had no holder left, but this handle holds it
        obtain rfl : g = f := by
          cases hg.symm.trans hf
          rfl
        have hheld := hacc.mem_holds hr' hhold'
        exact absurd (show id' ∈ (r.release s.host).holds from hheld) (hfid ▸ hgid ▸ hmore)

theorem Settled.remove (hs : c.Settled s) (hn : c.names n) :
    c.Settled (s.step c.dir (.remove n)) := by
  have ht := hs.accounted.tended
  obtain ⟨-, hgrows, hholds, hgone, hother⟩ := remove_cases ht hn rfl
  have hgone : (Region.remove c.dir n s.host).2.disk.node? (c.regionPlace n) = none := by
    refine hgone fun hdir => ?_
    obtain ⟨f, hf, -⟩ := hs.kept hn _ hdir
    cases hf
  simp only [Ledger.step, Use.apply, Ledger.handing, Ledger.removal, List.nil_append]
  have hremoved : ∀ {id}, id ∈ ((s.host.disk.file? (c.dir.join n)).map File.id).toList
      ↔ ∃ f, s.host.disk.node? (c.regionPlace n) = some (.file f) ∧ f.id = id := by
    intro id
    simp only [Option.mem_toList, Option.map_eq_some_iff, ht.file?_iff hn]
  refine ⟨hs.accounted.remove hn, fun {m} hm node hnode => ?_, fun r hr => ?_, fun id hid => ?_,
    hs.unchanged, hs.written⟩
  · by_cases hmn : m = n
    · subst hmn
      cases hgone.symm.trans hnode
    · have hbefore := (hother m hm hmn).symm.trans hnode
      obtain ⟨f, rfl, hheld, hstill⟩ := hs.kept hm node hbefore
      refine ⟨f, rfl, hholds ▸ hheld, fun hmem => ?_⟩
      rcases List.mem_append.1 hmem with hmem | hmem
      · obtain ⟨g, hg, hid⟩ := hremoved.1 hmem
        exact hmn (regionPlace_injective (ht.sane.alone hbefore hg hid.symm))
      · exact hstill hmem
  · obtain ⟨m, id, hm, hhold, hthere⟩ := hs.here r hr
    refine ⟨m, id, hm, hhold, fun hid => ?_⟩
    obtain ⟨f, hf, rfl⟩ := hthere fun hmem => hid (List.mem_append_right _ hmem)
    have hmn : m ≠ n := by
      rintro rfl
      exact hid (List.mem_append_left _ (hremoved.2 ⟨f, hf, rfl⟩))
    exact ⟨f, (hother m hm hmn).trans hf, rfl⟩
  · rcases List.mem_append.1 hid with hid | hid
    · obtain ⟨f, hf, rfl⟩ := hremoved.1 hid
      exact Nat.lt_of_lt_of_le (ht.sane.given hf) hgrows.next
    · exact Nat.lt_of_lt_of_le (hs.given id hid) hgrows.next

theorem Settled.step (hs : c.Settled s) {u : Use} (hu : u.Within c) :
    c.Settled (s.step c.dir u) := by
  cases u with
  | call name size filling => exact hs.call hu size filling
  | drop i => exact hs.drop i
  | remove name => exact hs.remove hu

theorem Settled.run (hs : c.Settled s) {uses : List Use} (hu : ∀ u ∈ uses, u.Within c) :
    c.Settled (uses.foldl (Ledger.step c.dir) s) := by
  induction uses generalizing s with
  | nil => exact hs
  | cons u uses ih =>
    exact ih (hs.step (hu u List.mem_cons_self)) fun v hv => hu v (List.mem_cons_of_mem _ hv)

/-! ## What the invariant says -/

/-- The file that a live handle holds stands under its name until it is taken away. -/
theorem Settled.file_of_hold (hs : c.Settled s) (hr : r ∈ s.live) (hn : c.names n)
    (hhold : r.hold? = some (holdBelow c.dir n id)) (hstill : id ∉ s.removed) :
    ∃ f, s.host.disk.node? (c.regionPlace n) = some (.file f) ∧ f.id = id := by
  obtain ⟨m, id', hm, hhold', hthere⟩ := hs.here r hr
  have hsame := Option.some.inj (hhold.symm.trans hhold')
  obtain rfl : id = id' := congrArg Hold.file hsame
  obtain ⟨f, hf, hid⟩ := hthere hstill
  have hpath : c.dir.join n = c.dir.join m := congrArg Hold.path hsame
  have hfile := (hs.accounted.tended.file?_iff hm).2 hf
  exact ⟨f, (hs.accounted.tended.file?_iff hn).1 (hpath ▸ hfile), hid⟩

theorem Settled.toLifetime (hs : c.Settled s) : c.Lifetime s where
  stands {n} hn id := by
    constructor
    · rintro ⟨f, hf, rfl⟩
      have hnode := (hs.accounted.tended.file?_iff hn).1 hf
      obtain ⟨g, hg, -, hstill⟩ := hs.kept hn _ hnode
      cases hg
      exact ⟨hstill, hs.holder hn hnode⟩
    · rintro ⟨hstill, r, hr, hhold⟩
      obtain ⟨f, hnode, hid⟩ := hs.file_of_hold hr hn hhold hstill
      exact ⟨f, (hs.accounted.tended.file?_iff hn).2 hnode, hid⟩
  fills {n} hn hfile size filling blank hblank :=
    hs.accounted.tended.fills hn (hs.node?_of_file?_none hn hfile) size filling hblank
  undone {n} hn hfile size filling e h hfail := by
    have hu := (settles_createOrAttachBy hs.accounted.tended hn size filling).failed e
      (congrArg Prod.fst hfail)
    rw [hfail] at hu
    refine Option.eq_none_iff_forall_ne_some.2 fun f hf => ?_
    have hafter := (hu.tended.file?_iff hn).1 hf
    have hbefore := hs.node?_of_file?_none hn hfile
    rcases hu.nodes (c.regionPlace n) with hsame | ⟨-, m, hm, hlock⟩ | ⟨hgone, -⟩
    · cases hbefore.symm.trans (hsame.symm.trans hafter)
    · exact regionPlace_ne_lockPlace hn hm hlock
    · cases hgone.symm.trans hafter
  unfilled {n f} hn hfile size filling filling' := by
    have hnode := (hs.accounted.tended.file?_iff hn).1 hfile
    rw [Region.createOrAttachBy_of_file (hs.accounted.tended.ready hn) hnode,
      Region.createOrAttachBy_of_file (hs.accounted.tended.ready hn) hnode]
  attaches r hr {n id} hn hhold hstill w hw hmade size filling := by
    obtain ⟨f, hnode, rfl⟩ := hs.file_of_hold hr hn hhold hstill
    rw [Region.createOrAttachBy_of_file (hs.accounted.tended.ready hn) hnode,
      hs.contents_eq hr hnode hhold, hmade.size]
    by_cases hsize : size = w.size
    · simp only [hsize, if_true]
    · simp only [hsize, Ne.symm hsize, if_false]
  unchanged := hs.unchanged
  written := hs.written
  shown r hr q f hf := (hs.accounted.current r hr).reread hf

/-- Whatever a process does with the regions of a directory, in any order: a file stands under a
name exactly as long as a live handle holds that very file or it is removed, calls fill exactly
where no file stands, and a handle keeps the bytes that the owner of its file wrote. -/
theorem Vacant.lifetime (hv : c.Vacant h) {uses : List Use} (hu : ∀ u ∈ uses, u.Within c) :
    c.Lifetime (uses.foldl (Ledger.step c.dir) (.start h)) :=
  (hv.settled.run hu).toLifetime

/-- A directory for one region. -/
def sampleHome : Home where
  dir := ⟨"regions"⟩
  place := ["regions"]
  names := (· = "R")
  fits := by
    rintro n rfl
    exact ⟨⟨by decide, by decide, by decide, by decide, by decide, by decide⟩, by decide⟩
  fitsLock := by
    rintro n rfl
    exact ⟨⟨by decide, by decide, by decide, by decide, by decide, by decide⟩, by decide⟩
  apart := by
    rintro m n rfl rfl
    exact Region.ne_lockName "R"

def sampleHost : Host :=
  .ofDisk ⟨[(["regions"], .directory)], [], 0⟩

theorem vacant_sample : sampleHome.Vacant sampleHost where
  tended := by
    have hno : ∀ {q f}, sampleHost.disk.node? q ≠ some (.file f) := by
      intro q f h
      simp only [Disk.node?, sampleHost, Host.ofDisk, List.lookup_cons, List.lookup_nil] at h
      split at h
      · cases h
      · split at h
        · cases h
        · cases h
    have hplain : Plain "regions" := by decide
    refine ⟨⟨fun h => absurd h hno, fun h => absurd h hno⟩,
      (Disk.find_name hplain rfl rfl).trans rfl, ?_, by simp [sampleHost, Host.ofDisk]⟩
    rintro n rfl h
    cases h
  unheld := rfl
  vacant := by
    rintro n rfl
    rfl

/-- Writes one byte and fails. -/
def stopped : Filling where
  run block := (.error .notLoaded, .mk fun _ => Region.overlaid block.get ⟨#[1]⟩)
  size_run _ := Region.size_overlaid _ _

/-- A region is filled in part, then filled and attached to, removed and filled again, and then the
first handle goes. -/
def sampleUses : List Use :=
  [.call "R" 2 stopped, .call "R" 2 (.copying fun _ => .ok ⟨#[1, 2]⟩), .call "R" 2 stopped,
    .call "R" 3 stopped, .remove "R", .call "R" 2 (.copying fun _ => .ok ⟨#[3, 4]⟩), .drop 2]

theorem Vacant.lifetime_sample :
    sampleHome.Vacant sampleHost ∧ (∀ u ∈ sampleUses, u.Within sampleHome)
      ∧ sampleHome.Lifetime
        (sampleUses.foldl (Ledger.step sampleHome.dir) (.start sampleHost)) := by
  have huses : ∀ u ∈ sampleUses, u.Within sampleHome := by
    simp [sampleUses, Use.Within, sampleHome]
  exact ⟨vacant_sample, huses, Vacant.lifetime vacant_sample huses⟩

end Home

end OffsetAtlas
