/-
OffsetAtlas.Proofs.Region.Sharing — what creating, attaching and letting go do on a disk.

In a directory that is ready for a name (`Ready`), `createOrAttachBy` is one of two things: if
nothing stands under the name a file is made and filled (`createOrAttachBy_of_none`), and if a file
stands there its bytes are handed out when their number is right (`createOrAttachBy_of_file`).
Either way the lock stands there afterwards. A filling that fails has the file deleted, whatever it
has written, and all that is left of it is an identity that nobody has (`fill_apply`).
`releaseHold` touches the lock and deletes at most the file under the hold's path, and `remove`
deletes at most two files.
-/
import OffsetAtlas.Proofs.Disk.Operations
import OffsetAtlas.Proofs.Region.Names

namespace OffsetAtlas.Region

open Disk (touched)

variable {dir : Path} {place : Place} {name : String} {size : Nat} {filling : Filling}
  {fill : Unit → Except Failure ByteArray} {h : Host} {f : File}

/-- A directory in which regions of this name can be made and attached to without a fault of the
disk. -/
structure Ready (d : Disk) (dir : Path) (place : Place) (name : String) : Prop where
  found : d.find dir = .ok (place, .directory)
  fits : FitsBelow dir name
  fitsLock : FitsBelow dir (lockName name)
  lockFree : d.node? (place ++ [lockName name]) ≠ some .directory

/-- A hold on the file under a name in a directory. -/
def holdBelow (dir : Path) (name : String) (file : FileId) : Hold :=
  ⟨file, dir.join name, dir.join (lockName name)⟩

/-- The disk once the lock of a name stands beside it. -/
def lockedDisk (d : Disk) (place : Place) (name : String) : Disk :=
  d.touched (place ++ [lockName name])

/-- The same block in memory of its own. -/
def unshared (r : Region) : Region :=
  ofBytes r.name r.bytes

theorem ne_lockName (name : String) : name ≠ lockName name := by
  intro he
  have := congrArg String.utf8ByteSize he
  rw [lockName, String.utf8ByteSize_append] at this
  exact absurd this (by simp [show (".lock" : String).utf8ByteSize = 5 from rfl])

theorem node?_lockedDisk (d : Disk) (place : Place) (name : String) :
    (lockedDisk d place name).node? (place ++ [name]) = d.node? (place ++ [name]) :=
  Disk.node?_touched_of_ne (by simpa using ne_lockName name)

/-- The directory stays ready when a region has been made in it. -/
theorem Ready.made {d : Disk} (hr : Ready d dir place name)
    (hn : d.node? (place ++ [name]) = none) (contents : ByteArray) :
    Ready ((lockedDisk d place name).putNew (place ++ [name]) contents).2 dir place name where
  found := by
    have hfree : (lockedDisk d place name).node? (place ++ [name]) ≠ some .directory := by
      rw [node?_lockedDisk, hn]
      simp
    exact Disk.find_putNew (Disk.find_touched hr.found) hfree contents
  fits := hr.fits
  fitsLock := hr.fitsLock
  lockFree hlock :=
    hr.lockFree (Disk.directory_of_node?_touched (Disk.directory_of_node?_putNew hlock))

theorem node?_made {d : Disk} (contents : ByteArray) :
    ((lockedDisk d place name).putNew (place ++ [name]) contents).2.node? (place ++ [name])
      = some (.file ⟨⟨(lockedDisk d place name).nextId⟩, contents⟩) := by
  rw [Disk.node?_putNew, if_neg (by simp), if_pos rfl]

/-! ## Making and attaching -/

theorem makeHome_apply (hr : h.disk.find dir = .ok (place, .directory)) :
    makeHome dir h = (.ok (), h) := by
  simp [makeHome, Disk.makeDirectory_of_find hr]

theorem lock_apply (hr : Ready h.disk dir place name) :
    lock (dir.join (lockName name)) h
      = (.ok (), { h with disk := lockedDisk h.disk place name }) := by
  rw [lock, Host.alter, Disk.touch_join hr.found hr.fitsLock hr.lockFree]
  rfl

theorem makeFile_apply (hf : h.disk.find dir = .ok (place, .directory)) (hn : FitsBelow dir name) :
    makeFile (dir.join name) h = match h.disk.node? (place ++ [name]) with
      | none => (.ok (some (place ++ [name], ⟨h.disk.nextId⟩)),
          { h with disk := (h.disk.putNew (place ++ [name]) .empty).2 })
      | some _ => (.ok none, h) := by
  rw [makeFile, Disk.create_join hf hn]
  cases h.disk.node? (place ++ [name]) <;> rfl

/-- Filling a file that was just made: it holds what the filling leaves, or it is gone again. -/
theorem fill_apply (hf : h.disk.find dir = .ok (place, .directory)) (hfits : FitsBelow dir name)
    (hn : h.disk.node? (place ++ [name]) = none) :
    removeOnFailure (dir.join name) (populateNew (place ++ [name]) size filling)
        { h with disk := (h.disk.putNew (place ++ [name]) .empty).2 } =
      match filling.run (zeros size) with
      | (.error e, _) => (.error e, { h with disk := h.disk.spent })
      | (.ok (), left) =>
        (.ok left.get, { h with disk := (h.disk.putNew (place ++ [name]) left.get).2 }) := by
  have hroot : place ++ [name] ≠ [] := by simp
  simp only [removeOnFailure, populateNew]
  rw [Disk.write_putNew _ hroot, Disk.write_putNew _ hroot]
  rcases filling.run (zeros size) with ⟨e | ⟨⟩, left⟩
  · have hfile : (h.disk.putNew (place ++ [name]) left.get).2.node? (place ++ [name])
        = some (.file ⟨⟨h.disk.nextId⟩, left.get⟩) := by
      rw [Disk.node?_putNew, if_neg hroot, if_pos rfl]
    have hremove : (h.disk.putNew (place ++ [name]) left.get).2.remove (dir.join name)
        = .ok h.disk.spent := by
      rw [Disk.remove_join (Disk.find_putNew hf (by simp [hn]) _) hfits, hfile,
        Disk.erase_putNew hn]
    simp only [Except.map, hremove]
    rfl
  · rfl

/-- Behind the lock, what stands under the name decides. -/
theorem createOrAttachBy_shared (hr : Ready h.disk dir place name) :
    createOrAttachBy (.shared dir) name size filling h
      = (makeFile (dir.join name)
          >>= enter name size filling (dir.join name) (dir.join (lockName name)))
          { h with disk := lockedDisk h.disk place name } := by
  unfold createOrAttachBy
  simp only
  rw [Attempt.bind_of_ok (makeHome_apply hr.found), Attempt.bind_of_ok (lock_apply hr)]

/-- Where nothing stands under the name a file is made and filled. -/
theorem createOrAttachBy_of_none (hr : Ready h.disk dir place name)
    (hn : h.disk.node? (place ++ [name]) = none) :
    createOrAttachBy (.shared dir) name size filling h =
      let d := lockedDisk h.disk place name
      match filling.run (zeros size) with
      | (.error e, _) => (.error e, { h with disk := d.spent })
      | (.ok (), left) =>
        (.ok ⟨name, .owner, left.get, .held (holdBelow dir name ⟨d.nextId⟩)⟩,
          ⟨(d.putNew (place ++ [name]) left.get).2, ⟨d.nextId⟩ :: h.holds,
            h.log.push (arrivalNotice "Created shared region" (dir.join name).text size)⟩) := by
  have hfound : (lockedDisk h.disk place name).find dir = .ok (place, .directory) :=
    Disk.find_touched hr.found
  have hnone : (lockedDisk h.disk place name).node? (place ++ [name]) = none := by
    rw [node?_lockedDisk, hn]
  have hmake := makeFile_apply (h := { h with disk := lockedDisk h.disk place name }) hfound hr.fits
  simp only [hnone] at hmake
  rw [createOrAttachBy_shared hr, Attempt.bind_of_ok hmake]
  simp only [enter, createShared]
  rw [Attempt.bind_apply,
    fill_apply (h := { h with disk := lockedDisk h.disk place name }) hfound hr.fits hnone]
  rcases filling.run (zeros size) with ⟨e | ⟨⟩, left⟩
  · rfl
  · rfl

/-- What stands under the name is attached to, if that can be done. -/
theorem createOrAttachBy_of_some {node : Node} (hr : Ready h.disk dir place name)
    (hn : h.disk.node? (place ++ [name]) = some node) :
    createOrAttachBy (.shared dir) name size filling h
      = attach name size (dir.join name) (dir.join (lockName name))
          { h with disk := lockedDisk h.disk place name } := by
  have hfound : (lockedDisk h.disk place name).find dir = .ok (place, .directory) :=
    Disk.find_touched hr.found
  have hmake := makeFile_apply (h := { h with disk := lockedDisk h.disk place name }) hfound hr.fits
  simp only [(node?_lockedDisk h.disk place name).trans hn] at hmake
  rw [createOrAttachBy_shared hr, Attempt.bind_of_ok hmake]
  rfl

/-- Attaching finds what stands under the name. -/
theorem ask_find {node : Node} (hr : Ready h.disk dir place name)
    (hn : h.disk.node? (place ++ [name]) = some node) :
    Host.ask (fun d => (d.find (dir.join name)).mapError (.notOpened (dir.join name)))
        { h with disk := lockedDisk h.disk place name }
      = (.ok (place ++ [name], node), { h with disk := lockedDisk h.disk place name }) := by
  have hfound : (lockedDisk h.disk place name).find dir = .ok (place, .directory) :=
    Disk.find_touched hr.found
  rw [Host.ask, Disk.find_join hfound hr.fits, (node?_lockedDisk h.disk place name).trans hn]
  rfl

/-- Where a file stands under the name its bytes are handed out if there are as many as asked
for. -/
theorem createOrAttachBy_of_file (hr : Ready h.disk dir place name)
    (hn : h.disk.node? (place ++ [name]) = some (.file f)) :
    createOrAttachBy (.shared dir) name size filling h =
      let d := lockedDisk h.disk place name
      if f.contents.size = size then
        (.ok ⟨name, .attached, f.contents, .held (holdBelow dir name f.id)⟩,
          ⟨d, f.id :: h.holds,
            h.log.push (arrivalNotice "Attached to shared region" (dir.join name).text size)⟩)
      else (.error (.regionSizeMismatch name size f.contents.size), { h with disk := d }) := by
  rw [createOrAttachBy_of_some hr hn, attach, Attempt.bind_of_ok (ask_find hr hn)]
  simp only
  split
  · rfl
  · rfl

/-- A directory under the name is no region, whatever its size is taken for. -/
theorem createOrAttachBy_of_directory (hr : Ready h.disk dir place name)
    (hn : h.disk.node? (place ++ [name]) = some .directory) :
    createOrAttachBy (.shared dir) name size filling h =
      (.error (if directorySize = size then .disk .notMappable
        else .regionSizeMismatch name size directorySize),
        { h with disk := lockedDisk h.disk place name }) := by
  rw [createOrAttachBy_of_some hr hn, attach, Attempt.bind_of_ok (ask_find hr hn)]
  simp only
  split
  · rfl
  · rfl

/-! ## Bytes that are worked out and copied -/

theorem size_zeros (size : Nat) : (zeros size).size = size := by
  simp [zeros, ByteArray.size]

/-- Bytes in front of zeros are the bytes cut to the block, or zeros behind them. -/
theorem overlaid_zeros (size : Nat) (bytes : ByteArray) :
    overlaid (zeros size) bytes = fitted size bytes := by
  have hlength : bytes.data.toList.length = bytes.size := Array.length_toList
  have hzeros : (zeros size).data.toList = List.replicate size 0 := Array.toList_replicate
  have hlist : (overlaid (zeros size) bytes).data.toList
      = bytes.data.toList.take size ++ List.replicate (size - bytes.size) 0 := by
    simp only [overlaid, size_zeros, ByteArray.data_append, ByteArray.data_extract,
      Array.toList_append, Array.toList_extract, List.extract_eq_take_drop, hzeros,
      List.drop_zero, Nat.sub_zero, List.drop_replicate, List.take_replicate, Nat.min_self]
  unfold fitted
  split
  · next hsize =>
    refine ByteArray.ext (Array.ext' (hlist.trans ?_))
    rw [hsize, Nat.sub_self, List.replicate_zero, List.append_nil,
      List.take_of_length_le (hlength.trans hsize).le]
  · refine ByteArray.ext (Array.ext' (hlist.trans ?_))
    have hkept : size - (bytes.data.toList.take size).length = size - bytes.size := by
      rw [List.length_take, hlength]
      omega
    simp only [hkept]

theorem run_copying_zeros (fill : Unit → Except Failure ByteArray) (size : Nat) :
    (Filling.copying fill).run (zeros size) = match fill () with
      | .error e => (.error e, zeros size)
      | .ok b => (.ok (), fitted size b) := by
  simp only [Filling.copying]
  cases fill () with
  | error e => rfl
  | ok b =>
    simp only
    rw [← overlaid_zeros]
    rfl

theorem createOrAttach_of_none (hr : Ready h.disk dir place name)
    (hn : h.disk.node? (place ++ [name]) = none) :
    createOrAttach (.shared dir) name size fill h =
      let d := lockedDisk h.disk place name
      match fill () with
      | .error e => (.error e, { h with disk := d.spent })
      | .ok b =>
        (.ok ⟨name, .owner, fitted size b, .held (holdBelow dir name ⟨d.nextId⟩)⟩,
          ⟨(d.putNew (place ++ [name]) (fitted size b)).2, ⟨d.nextId⟩ :: h.holds,
            h.log.push (arrivalNotice "Created shared region" (dir.join name).text size)⟩) := by
  rw [createOrAttach, createOrAttachBy_of_none hr hn, run_copying_zeros]
  cases fill () <;> rfl

theorem createOrAttach_of_file (hr : Ready h.disk dir place name)
    (hn : h.disk.node? (place ++ [name]) = some (.file f)) :
    createOrAttach (.shared dir) name size fill h =
      let d := lockedDisk h.disk place name
      if f.contents.size = size then
        (.ok ⟨name, .attached, f.contents, .held (holdBelow dir name f.id)⟩,
          ⟨d, f.id :: h.holds,
            h.log.push (arrivalNotice "Attached to shared region" (dir.join name).text size)⟩)
      else (.error (.regionSizeMismatch name size f.contents.size), { h with disk := d }) :=
  createOrAttachBy_of_file hr hn

/-- A block in memory of its own is whatever it is filled with. -/
theorem createOrAttach_anonymous :
    createOrAttach .anonymous name size fill h =
      match fill () with
      | .error e => (.error e, h)
      | .ok b =>
        (.ok (ofBytes name (fitted size b)),
          h.noted (arrivalNotice "Created private region" name size)) := by
  simp only [createOrAttach, createOrAttachBy, createAnonymous]
  rw [run_copying_zeros, Attempt.bind_apply, Attempt.ofExcept_apply]
  cases fill () with
  | error e => rfl
  | ok b => rfl

/-- A file that is read in place. -/
def ofFile (path : Path) (f : File) : Region :=
  ⟨path.fileName?.getD "", .attached, f.contents, .mapped f.id path⟩

theorem mapFile_of_file? {path : Path} (hf : h.disk.file? path = some f) :
    mapFile path h = (.ok (ofFile path f), h) := by
  unfold Disk.file? at hf
  split at hf
  · next q g hfind =>
    cases hf
    rw [mapFile, Host.ask, hfind]
    rfl
  · cases hf

/-! ## Letting go -/

/-- Letting go of a hold makes the lock if it can, and then deletes at most the file that the path
finds. -/
theorem disk_releaseHold (hold : Hold) (h : Host) :
    (releaseHold hold h).disk = h.disk
      ∨ ∃ d, h.disk.touch hold.lockPath = .ok d
        ∧ ((releaseHold hold h).disk = d
          ∨ ∃ q f, d.find hold.path = .ok (q, .file f)
            ∧ (releaseHold hold h).disk = d.erase q) := by
  unfold releaseHold
  cases htouch : h.disk.touch hold.lockPath with
  | error e => exact .inl rfl
  | ok d =>
    refine .inr ⟨d, rfl, ?_⟩
    simp only
    split
    · cases hremove : d.remove hold.path with
      | error e => exact .inl rfl
      | ok d' =>
        obtain ⟨q, f, hfind, rfl⟩ := Disk.remove_eq_ok hremove
        exact .inr ⟨q, f, hfind, rfl⟩
    · exact .inl rfl

/-- Deleting a file if there is one. -/
theorem toOption_remove (d : Disk) (p : Path) :
    (d.remove p).toOption.getD d = d
      ∨ ∃ q f, d.node? q = some (.file f) ∧ (d.remove p).toOption.getD d = d.erase q := by
  cases hr : d.remove p with
  | error e => exact .inl rfl
  | ok d' =>
    obtain ⟨q, f, hfind, rfl⟩ := Disk.remove_eq_ok hr
    exact .inr ⟨q, f, Disk.node?_of_find hfind, rfl⟩

/-- Whatever deleting files keeps, deleting a region keeps. -/
theorem disk_remove_induction {P : Disk → Prop} (dir : Path) (name : String) (h : Host)
    (hd : P h.disk)
    (step : ∀ d q f, P d → d.node? q = some (.file f) → P (d.erase q)) :
    P (remove dir name h).2.disk := by
  have hunlock : ∀ d, P d → P ((d.remove (dir.join (lockName name))).toOption.getD d) := by
    intro d hp
    rcases toOption_remove d (dir.join (lockName name)) with he | ⟨q, f, hq, he⟩
    · rw [he]
      exact hp
    · rw [he]
      exact step d q f hp hq
  unfold remove
  simp only
  split
  · next d hr =>
    obtain ⟨q, f, hfind, rfl⟩ := Disk.remove_eq_ok hr
    exact hunlock _ (step _ q f hd (Disk.node?_of_find hfind))
  · exact hunlock _ hd
  · exact hd

end OffsetAtlas.Region
