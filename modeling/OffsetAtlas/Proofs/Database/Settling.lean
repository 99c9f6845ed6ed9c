/-
OffsetAtlas.Proofs.Database.Settling — a load hands out its region or leaves things as they were.

Loads fail in three places: in front of the region, in making or finding it, and behind it. In front
of it only the log has been written (`settles_of_quiet_bind`). Making or finding it settles by
`settles_createOrAttachBy`. Behind it the load lets go of what it gained, and that undoes the gain
(`settles_releaseOnFailure`). So `Settles` goes through all stages of a load, and nothing has to be
known about the failure.
-/
import OffsetAtlas.Proofs.Database.Opening
import OffsetAtlas.Proofs.Region.Accounting

namespace OffsetAtlas.Home

variable {α β : Type} {c : Home} {r : Region} {h h' h'' t : Host} {region : α → Region}
  {region' : β → Region} {running : Version} {payload bytes : List UInt8} {path : Path}

/-! ## Stages -/

theorem Gained.quiet (hg : c.Gained r h h') (hq : h'.Quiet h'') : c.Gained r h h'' := by
  have hd := hq.disk
  have hh := hq.holds
  cases hg with
  | alone hr hcurrent hd' hh' => exact .alone hr hcurrent (hd.trans hd') (hh.trans hh')
  | made hn hnode hb hd' hh' => exact .made hn hnode hb (hd.trans hd') (hh.trans hh')
  | attached hn hnode hb hbytes hd' hh' =>
    exact .attached hn hnode hb hbytes (hd.trans hd') (hh.trans hh')

theorem Gained.after (hq : h.Quiet h') (hg : c.Gained r h' h'') : c.Gained r h h'' := by
  obtain ⟨disk, holds, log⟩ := h
  obtain ⟨disk', holds', log'⟩ := h'
  obtain ⟨rfl, rfl⟩ := hq
  cases hg with
  | alone hr hcurrent hd hh => exact .alone hr hcurrent hd hh
  | made hn hnode hb hd hh => exact .made hn hnode hb hd hh
  | attached hn hnode hb hbytes hd hh => exact .attached hn hnode hb hbytes hd hh

theorem Untouched.after (hq : h.Quiet h') (hu : c.Untouched h' h'') : c.Untouched h h'' where
  tended := hu.tended
  grows := hq.disk ▸ hu.grows
  holds := hu.holds.trans hq.holds
  nodes q := hq.disk ▸ hq.holds ▸ hu.nodes q

theorem Settles.after {x : Except Failure α × Host} (hq : h.Quiet h')
    (hx : c.Settles region h' x) : c.Settles region h x where
  gained a ha := (hx.gained a ha).after hq
  failed e he := (hx.failed e he).after hq

theorem Settles.bind {x : HostM α} {f : α → HostM β} (hx : c.Settles region h (x t))
    (hf : ∀ a t, c.Gained (region a) h t → c.Settles region' h (f a t)) :
    c.Settles region' h ((x >>= f) t) := by
  rw [Attempt.bind_apply]
  rcases hxt : x t with ⟨e | a, s⟩ <;> rw [hxt] at hx
  · exact .of_error (hx.failed e rfl)
  · exact hf a s (hx.gained a rfl)

theorem settles_of_quiet_bind (ht : c.Tended h.disk h.holds) {x : HostM α} {f : α → HostM β}
    (hx : Attempt.Quiet x)
    (hf : ∀ a t, (x h).1 = .ok a → h.Quiet t → c.Settles region' h (f a t)) :
    c.Settles region' h ((x >>= f) h) := by
  rw [Attempt.bind_apply]
  have hq := hx h
  rcases hxh : x h with ⟨e | a, t⟩ <;> rw [hxh] at hq hf
  · exact .of_error (.of_quiet ht hq)
  · exact hf a t rfl hq

/-- What fails behind a region lets go of it. -/
theorem settles_releaseOnFailure (ht : c.Tended h.disk h.holds) (hg : c.Gained r h t)
    {x : HostM α} (hx : Attempt.Quiet x) (hr : ∀ a, (x t).1 = .ok a → region a = r) :
    c.Settles region h (r.releaseOnFailure x t) := by
  unfold Region.releaseOnFailure
  have hq := hx t
  rcases hxt : x t with ⟨e | a, s⟩ <;> rw [hxt] at hq hr
  · exact .of_error (hg.release ht hq)
  · refine .of_ok ?_
    rw [hr a rfl]
    exact hg.quiet hq

/-- What fails behind a region that is not shared has nothing to let go of. -/
theorem settles_alone (ht : c.Tended h.disk h.holds) (hnone : r.hold? = none)
    (hcurrent : r.Current h.disk) (hq : h.Quiet t) {x : HostM α} (hx : Attempt.Quiet x)
    (hr : ∀ a, (x t).1 = .ok a → region a = r) : c.Settles region h (x t) := by
  have hq' := hq.trans (hx t)
  rcases hxt : x t with ⟨e | a, s⟩ <;> rw [hxt] at hq' hr
  · exact .of_error (.of_quiet ht hq')
  · refine .of_ok ?_
    rw [hr a rfl]
    exact .alone hnone hcurrent hq'.disk hq'.holds

/-! ## Tables -/

theorem settles_fillingOrdered (ht : c.Tended h.disk h.holds) (hg : c.Gained r h t) (n : Nat) :
    c.Settles Store.region h (Store.fillingOrdered r n t) := by
  refine settles_releaseOnFailure ht hg
    ((Attempt.quiet_ofExcept _).bind fun _ => Attempt.quiet_pure _) fun st hst => ?_
  rw [Attempt.bind_apply, Attempt.ofExcept_apply] at hst
  cases htable : Table.ofOrdered r.bytes 0 n with
  | error e => simp [htable] at hst
  | ok table =>
    rw [htable] at hst
    cases hst
    rfl

theorem settles_loadDelta (ht : c.Tended h.disk h.holds)
    (hn : c.names (regionName running payload)) :
    c.Settles (fun p => p.1.region) h (Store.loadDelta payload running (.shared c.dir) h) := by
  cases hhead : (Attempt.on (.ofBytes payload) Delta.Header.read).1.bind fun header =>
      Store.checkDelta running header with
  | error e =>
    rw [Store.loadDelta_refused hhead]
    exact .of_error (.of_quiet ht (.refl h))
  | ok u =>
    obtain ⟨header, hread, hcheck⟩ := Store.accepted_of_ok hhead
    rw [Store.loadDelta_of_header hread hcheck]
    refine (settles_createOrAttachBy ht hn _ _).bind fun r t hg => ?_
    rw [Store.finishDelta, Host.note_bind]
    have hnoted : c.Gained r h (t.noted (Store.readyNotice header r)) := hg.quiet ⟨rfl, rfl⟩
    exact (settles_fillingOrdered ht hnoted _).bind fun st t hg => .of_ok hg

theorem settles_loadRows (ht : c.Tended h.disk h.holds) (hn : c.names (regionName running bytes)) :
    c.Settles (fun p => p.1.region) h
      (Store.loadRows bytes path running (.shared c.dir) h) := by
  by_cases hempty : (Csv.parse bytes).entries = []
  · rw [Store.loadRows_of_empty hempty]
    exact .of_error (.of_quiet ht (Host.quiet_foldl_noted _ h))
  · rw [Store.loadRows_of_entries hempty]
    have hquiet := Store.quiet_parsedHost (Csv.parse bytes) running h
    have ht' := ht.quiet hquiet
    refine Settles.after hquiet ((settles_createOrAttachBy ht' hn _ _).bind fun r t hg => ?_)
    rw [Store.finishRows, Host.noteAll_bind]
    have hnoted := hg.quiet
      (Host.quiet_foldl_noted (Store.reportNotices (Csv.parse bytes).report) t)
    exact (settles_fillingOrdered ht' hnoted _).bind fun st t hg => .of_ok hg

theorem settles_loadCsv (ht : c.Tended h.disk h.holds)
    (hn : ∀ source, c.names (regionName running source)) :
    c.Settles (fun p => p.1.region) h (Store.loadCsv path running (.shared c.dir) h) := by
  refine settles_of_quiet_bind ht (Attempt.quiet_ask _) fun source t _ hq => ?_
  exact .after hq (settles_loadRows (ht.quiet hq) (hn _))

theorem quiet_mapFile (path : Path) : Attempt.Quiet (Region.mapFile path) :=
  Attempt.quiet_ask _

/-- A file that is read in place is not held, and has the bytes that it has. -/
theorem alone_mapFile (hs : h.disk.Sane) (hm : (Region.mapFile path h).1 = .ok r) :
    r.hold? = none ∧ r.Current h.disk := by
  unfold Region.mapFile Host.ask at hm
  simp only at hm
  split at hm
  · cases hm
  · cases hm
  · next q f hfind =>
    cases hm
    have hf := Disk.node?_of_find hfind
    refine ⟨rfl, fun id hid => ?_, fun p g hg hid => ?_⟩
    · cases hid
      exact hs.given hf
    · obtain rfl := hs.alone hf hg (Option.some.inj hid)
      cases hf.symm.trans hg
      rfl

theorem settles_loadPacked (ht : c.Tended h.disk h.holds) :
    c.Settles Store.region h (Store.loadPacked path h) := by
  refine settles_of_quiet_bind ht (quiet_mapFile path) fun r t hr hq => ?_
  obtain ⟨hnone, hcurrent⟩ := alone_mapFile ht.sane hr
  refine settles_alone ht hnone hcurrent hq
    ((Attempt.quiet_ofExcept _).bind fun _ => Attempt.quiet_pure _) fun st hst => ?_
  rw [Attempt.bind_apply, Attempt.ofExcept_apply] at hst
  cases htable : Packed.table r.bytes with
  | error e => simp [htable] at hst
  | ok table =>
    rw [htable] at hst
    cases hst
    rfl

theorem quiet_ofDenseRegion (r : Region) (running : Version) :
    Attempt.Quiet (Store.ofDenseRegion r running) :=
  (Attempt.quiet_ofExcept _).bind fun _ => (Attempt.quiet_note _).bind fun _ =>
    (Attempt.quiet_ofExcept _).bind fun _ => Attempt.quiet_pure _

theorem region_ofDenseRegion {p : Store × Dense.Header}
    (hp : (Store.ofDenseRegion r running t).1 = .ok p) : p.1.region = r := by
  obtain ⟨table, -, -, hst⟩ := Store.ofDenseRegion_eq_ok (Prod.ext hp rfl)
  rw [hst]

/-! ## Files -/

theorem settles_decodeTagged (ht : c.Tended h.disk h.holds)
    (hn : ∀ source, c.names (regionName running source)) :
    c.Settles (fun x => x.store.region) h
      (Database.decodeTagged path running (.shared c.dir) h) := by
  refine settles_of_quiet_bind ht (quiet_mapFile path) fun file t hfile hq => ?_
  obtain ⟨hnone, hcurrent⟩ := alone_mapFile ht.sane hfile
  have ht' := ht.quiet hq
  refine .after hq (settles_of_quiet_bind ht' (Attempt.quiet_ofExcept _) fun raw t' _ hq' => ?_)
  -- the records of either revision are read alike
  have hdelta : ∀ tag : FormatTag, c.Settles (fun x => x.store.region) t
      ((Store.loadDelta ((octets file.bytes).drop 4) running (.shared c.dir) >>= fun p =>
        (pure ⟨.ofTag tag, p.1, some p.2.name, none⟩ : HostM Database.Decoded)) t') := fun tag =>
    .after hq' ((settles_loadDelta (ht'.quiet hq') (hn _)).bind fun p s hg => .of_ok hg)
  have hunsupported : c.Settles (fun x : Database.Decoded => x.store.region) t
      (Attempt.fail (.unsupportedFormat raw) t') := .of_error (.of_quiet ht' hq')
  cases FormatTag.ofNumber? raw with
  | none => exact hunsupported
  | some tag =>
    cases tag with
    | firstDelta => exact hdelta .firstDelta
    | secondDelta => exact hdelta .secondDelta
    | csv => exact hunsupported
    | packed => exact hunsupported
    | dense =>
      refine settles_alone (r := file) ht' hnone (hq.disk ▸ hcurrent) hq'
        ((quiet_ofDenseRegion file running).bind fun _ => Attempt.quiet_pure _) fun x hx => ?_
      simp only at hx
      rw [Attempt.bind_apply] at hx
      rcases hp : Store.ofDenseRegion file running t' with ⟨e | p, s⟩ <;> rw [hp] at hx <;> cases hx
      exact region_ofDenseRegion (congrArg Prod.fst hp)

variable {source : Source} {config : Config}

theorem settles_decode (ht : c.Tended h.disk h.holds)
    (hn : ∀ source, c.names (regionName running source)) :
    c.Settles (fun x => x.store.region) h
      (Database.decode source running (.shared c.dir) h) := by
  unfold Database.decode
  cases source.kind with
  | packed => exact (settles_loadPacked ht).bind fun st t hg => .of_ok hg
  | csv => exact (settles_loadCsv ht hn).bind fun p t hg => .of_ok hg
  | tagged => exact settles_decodeTagged ht hn

theorem quiet_validate (denylist : Denylist) (source : Source) (running : Version)
    (table : ByteArray) : Attempt.Quiet (Database.validate denylist source running table) :=
  (Attempt.quiet_noteAll _).bind fun _ => Attempt.quiet_ofExcept _

theorem settles_load (ht : c.Tended h.disk h.holds)
    (hn : ∀ source, c.names (regionName running source)) :
    c.Settles Database.region h
      (Database.load source running { config with region := .shared c.dir } h) := by
  refine (settles_decode ht hn).bind fun decoded t hg => ?_
  refine settles_releaseOnFailure ht hg ((quiet_validate _ _ _ _).bind fun _ =>
    (Attempt.quiet_note _).bind fun _ => Attempt.quiet_pure _) fun db hdb => ?_
  rw [Attempt.bind_apply] at hdb
  rcases hv : Database.validate config.denylist source running decoded.store.region.bytes t with
    ⟨e | u, s⟩ <;> rw [hv] at hdb <;> cases hdb
  rfl

theorem settles_find (ht : c.Tended h.disk h.holds)
    (hn : ∀ source, c.names (regionName running source)) :
    c.Settles Database.region h
      (Database.find { config with region := .shared c.dir } running h) := by
  rw [Sharing.find_eq_seek]
  refine settles_of_quiet_bind ht (Sharing.quiet_seek _ running) fun source t _ hq => ?_
  exact .after hq (settles_load (ht.quiet hq) hn)

end OffsetAtlas.Home
