/-
OffsetAtlas.Proofs.Database.Seated — a table lies in the region that it is held with.

A store has a region and a table, and the table has a block of its own to look things up in. The two
are never apart: every way to a store makes the table of the region's bytes, by the one check that
there is (`Store.Made`), so a database that was opened answers with what is in its region
(`Database.seated_of_find`).
-/
import OffsetAtlas.Database.Open
import OffsetAtlas.Proofs.Database.Encoding
import OffsetAtlas.Proofs.Table.Accepted

namespace OffsetAtlas

/-- The table reads the bytes of the region. -/
def Store.Seated (s : Store) : Prop :=
  s.table.block = s.region.bytes

/-- The table was made of the bytes of the region. -/
inductive Store.Made (s : Store) : Prop where
  | ordered {start length : Nat} (made : Table.ofOrdered s.region.bytes start length = .ok s.table)
  | dense {start length : Nat} (made : Table.ofDense s.region.bytes start length = .ok s.table)

/-! ## Tables -/

namespace Table

variable {block : ByteArray} {start length : Nat} {t : Table}

theorem block_of_ofOrdered (h : ofOrdered block start length = .ok t) : t.block = block := by
  obtain ⟨-, -, rfl⟩ := ofOrdered_eq_ok.1 h
  rfl

theorem block_of_ofDense (h : ofDense block start length = .ok t) : t.block = block := by
  obtain ⟨-, -, rfl⟩ := ofDense_eq_ok.1 h
  rfl

end Table

theorem Store.Made.seated {s : Store} (hs : s.Made) : s.Seated := by
  cases hs with
  | ordered made => exact Table.block_of_ofOrdered made
  | dense made => exact Table.block_of_ofDense made

/-! ## Stores -/

theorem Region.ok_of_releaseOnFailure {α : Type} {r : Region} {x : HostM α} {a : α} {h h' : Host}
    (hx : r.releaseOnFailure x h = (.ok a, h')) : x h = (.ok a, h') := by
  rw [releaseOnFailure] at hx
  split at hx
  · next hrun =>
    cases hx
    exact hrun
  · cases hx

namespace Store

variable {region : Region} {path : Path} {running : Version} {location : RegionLocation}
  {h h' : Host} {st : Store}

theorem made_fillingOrdered {n : Nat} (hst : fillingOrdered region n h = (.ok st, h')) :
    st.Made := by
  obtain ⟨t, _, ht, hst⟩ := Attempt.bind_eq_ok.1 (Region.ok_of_releaseOnFailure hst)
  cases hst
  exact .ordered (congrArg Prod.fst ht)

theorem made_loadPacked (hst : loadPacked path h = (.ok st, h')) : st.Made := by
  obtain ⟨r, _, -, hst⟩ := Attempt.bind_eq_ok.1 hst
  obtain ⟨t, _, ht, hst⟩ := Attempt.bind_eq_ok.1 hst
  cases hst
  have ht : Packed.table r.bytes = .ok t := congrArg Prod.fst ht
  rw [Packed.table] at ht
  split at ht
  · exact .ordered ht
  · cases ht

theorem made_ofDenseRegion {header : Dense.Header}
    (hst : ofDenseRegion region running h = (.ok (st, header), h')) : st.Made := by
  obtain ⟨t, -, ht, rfl⟩ := ofDenseRegion_eq_ok hst
  exact .dense ht

theorem made_loadDelta {payload : List UInt8} {header : Delta.Header}
    (hst : loadDelta payload running location h = (.ok (st, header), h')) : st.Made := by
  obtain ⟨_, _, _, -, -, -, hst⟩ := loadDelta_eq_ok hst
  exact made_fillingOrdered hst

theorem made_loadRows {source : List UInt8} {report : Csv.Report}
    (hst : loadRows source path running location h = (.ok (st, report), h')) : st.Made := by
  obtain ⟨_, _, -, hst⟩ := Attempt.bind_eq_ok.1 hst
  split at hst
  · cases hst
  · obtain ⟨_, _, -, hst⟩ := Attempt.bind_eq_ok.1 hst
    obtain ⟨r, _, -, hst⟩ := Attempt.bind_eq_ok.1 hst
    obtain ⟨_, _, -, hst⟩ := Attempt.bind_eq_ok.1 hst
    obtain ⟨s, _, hs, hst⟩ := Attempt.bind_eq_ok.1 hst
    cases hst
    exact made_fillingOrdered hs

end Store

/-! ## Databases -/

namespace Database

variable {source : Source} {running : Version} {location : RegionLocation} {config : Config}
  {h h' : Host}

theorem made_decodeTagged {path : Path} {x : Decoded}
    (hx : decodeTagged path running location h = (.ok x, h')) : x.store.Made := by
  obtain ⟨file, _, -, hx⟩ := Attempt.bind_eq_ok.1 hx
  obtain ⟨raw, _, -, hx⟩ := Attempt.bind_eq_ok.1 hx
  rcases htag : FormatTag.ofNumber? raw with _ | tag
  · rw [htag] at hx
    cases hx
  · rw [htag] at hx
    cases tag with
    | packed => cases hx
    | csv => cases hx
    | firstDelta =>
      obtain ⟨_, _, hst, hx⟩ := Attempt.bind_eq_ok.1 hx
      cases hx
      exact Store.made_loadDelta hst
    | secondDelta =>
      obtain ⟨_, _, hst, hx⟩ := Attempt.bind_eq_ok.1 hx
      cases hx
      exact Store.made_loadDelta hst
    | dense =>
      obtain ⟨_, _, hst, hx⟩ := Attempt.bind_eq_ok.1 hx
      cases hx
      exact Store.made_ofDenseRegion hst

theorem made_decode {x : Decoded} (hx : decode source running location h = (.ok x, h')) :
    x.store.Made := by
  rw [decode] at hx
  cases hkind : source.kind with
  | packed =>
    rw [hkind] at hx
    obtain ⟨_, _, hst, hx⟩ := Attempt.bind_eq_ok.1 hx
    cases hx
    exact Store.made_loadPacked hst
  | csv =>
    rw [hkind] at hx
    obtain ⟨_, _, hst, hx⟩ := Attempt.bind_eq_ok.1 hx
    cases hx
    obtain ⟨_, _, -, hrows⟩ := Attempt.bind_eq_ok.1 hst
    exact Store.made_loadRows hrows
  | tagged =>
    rw [hkind] at hx
    exact made_decodeTagged hx

theorem made_load {db : Database} (hdb : load source running config h = (.ok db, h')) :
    db.store.Made := by
  obtain ⟨x, _, hx, hdb⟩ := Attempt.bind_eq_ok.1 hdb
  obtain ⟨_, _, -, hdb⟩ := Attempt.bind_eq_ok.1 (Region.ok_of_releaseOnFailure hdb)
  obtain ⟨_, _, -, hdb⟩ := Attempt.bind_eq_ok.1 hdb
  cases hdb
  exact made_decode hx

/-- A database that was found and opened answers with what is in its region. -/
theorem seated_of_find {db : Database} (hdb : find config running h = (.ok db, h')) :
    db.store.Seated := by
  obtain ⟨loader, _, -, hdb⟩ := Attempt.bind_eq_ok.1 hdb
  obtain ⟨_, _, -, hdb⟩ := Attempt.bind_eq_ok.1 hdb
  obtain ⟨source, _, -, hdb⟩ := Attempt.bind_eq_ok.1 hdb
  exact (made_load hdb).seated

end Database

end OffsetAtlas
