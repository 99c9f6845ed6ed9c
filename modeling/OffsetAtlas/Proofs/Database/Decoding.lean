/-
OffsetAtlas.Proofs.Database.Decoding — what becomes of a file once its table has been decoded.

The tag in front of a file says which decoding it is (`decode_delta`, `decode_dense`), and a file
that was decoded is loaded unless the denylist refuses its table (`load_of_check`). Where the table
lies, in a shared or a private region, plays no part in either.
-/
import OffsetAtlas.Database.Open
import OffsetAtlas.Proofs.Attempt.Quiet
import OffsetAtlas.Proofs.Bytes.Reading

namespace OffsetAtlas.Database

variable {source : Source} {path : Path} {running : Version} {location : RegionLocation}
  {config : Config} {image : List UInt8} {h g : Host} {x : Decoded}

/-! ## Decoding -/

/-- The tag in front of an image is read as it was written. -/
theorem tag_of_take {n : Nat} (hn : n < UInt32.size) (h : image.take 4 = Bytes.write 4 n) :
    (Attempt.on (.ofBytes image) (Reader.u32 "format tag")).1 = .ok (UInt32.ofNat n) := by
  have hread := Reader.u32_write hn "format tag" (image.drop 4) 0
  rw [← h, List.take_append_drop] at hread
  rw [Attempt.on, Reader.ofBytes, hread]

theorem decode_delta (loader : Loader) {r : Region} (hmap : Region.mapFile path h = (.ok r, h))
    (hbytes : octets r.bytes = image) (htag : image.take 4 = Bytes.write 4 2) {st : Store}
    {header : Delta.Header} {g : Host}
    (hload : Store.loadDelta (image.drop 4) running location h = (.ok (st, header), g)) :
    decode ⟨path, loader, .tagged⟩ running location h
      = (.ok ⟨.ofTag .secondDelta, st, some header.name, none⟩, g) := by
  simp only [decode, decodeTagged]
  rw [Attempt.bind_of_ok hmap, hbytes, Attempt.ofExcept_bind (tag_of_take (by decide) htag)]
  simp only [FormatTag.ofNumber?]
  rw [if_neg (by decide), if_pos (by decide)]
  exact Attempt.bind_of_ok hload _

theorem decode_dense (loader : Loader) {r : Region} (hmap : Region.mapFile path h = (.ok r, h))
    (hbytes : octets r.bytes = image) (htag : image.take 4 = Bytes.write 4 5) {st : Store}
    {header : Dense.Header} {g : Host}
    (hload : Store.ofDenseRegion r running h = (.ok (st, header), g)) :
    decode ⟨path, loader, .tagged⟩ running location h
      = (.ok ⟨.dense, st, some header.name, none⟩, g) := by
  simp only [decode, decodeTagged]
  rw [Attempt.bind_of_ok hmap, hbytes, Attempt.ofExcept_bind (tag_of_take (by decide) htag)]
  simp only [FormatTag.ofNumber?]
  rw [if_neg (by decide), if_neg (by decide), if_pos (by decide)]
  exact Attempt.bind_of_ok hload _

/-! ## Loading -/

/-- The database that a decoded file becomes. -/
def opened (source : Source) (running : Version) (x : Decoded) : Database :=
  ⟨source.path, source.loader, running, x.format, x.name, x.store, x.report, none⟩

/-- A load of a file that was decoded answers as the denylist does. -/
theorem load_of_check (hdecode : decode source running config.region h = (.ok x, g)) :
    (load source running config h).1
      = (config.denylist.check source.loader running x.store.region.bytes source.path).1.map
        fun _ => opened source running x := by
  rw [load, Attempt.bind_of_ok hdecode, Region.releaseOnFailure, validate]
  cases hcheck : config.denylist.check source.loader running x.store.region.bytes source.path with
  | mk verdict notices =>
    simp only
    cases verdict with
    | error e => rfl
    | ok u => rfl

/-- Without a denylist every file that was decoded is loaded, and the disk is left alone. -/
theorem load_of_decode (config : Config)
    (hdecode : decode source running config.region h = (.ok x, g))
    (hempty : config.denylist = .empty) :
    ∃ g', load source running config h = (.ok (opened source running x), g')
      ∧ g'.disk = g.disk := by
  rw [load, Attempt.bind_of_ok hdecode, hempty]
  exact ⟨_, rfl, rfl⟩

end OffsetAtlas.Database
