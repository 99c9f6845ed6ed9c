/-
OffsetAtlas.Proofs.Table.Ordered — what look-ups in an ordered table find.

A table in the block of some entries holds these entries (`entries_eq`), and what a look-up finds
depends on the entries alone (`find_congr`). Nothing is found that is not an entry
(`mem_of_find`). Where the entries ascend, the last one with an identifier is found
(`find_of_ascending`), and where they ascend strictly each of them is (`find_of_mem`). An identifier
that no entry exceeds is answered by the last entry, in whatever order the entries are
(`find_of_forall_le`). So two tables of one length, one of them ascending strictly and the other at
all, answer alike only if they are the same (`entries_eq_of_find_eq`).
-/
import Mathlib.Data.List.Perm.Subperm
import OffsetAtlas.Proofs.Database.Encoding

namespace OffsetAtlas

/-! ## Bisection -/

/-- Where a condition holds in front of one place and nowhere behind it, bisection finds the
place. -/
theorem bisect_spec {n : Nat} {p : Fin n → Bool}
    (hp : ∀ i j : Fin n, i ≤ j → p j = true → p i = true) (lo hi : Nat) (inside : hi ≤ n)
    (hlo : ∀ i : Fin n, i.val < lo → p i = true) (hhi : ∀ i : Fin n, hi ≤ i.val → p i = false)
    (hle : lo ≤ hi) (i : Fin n) : p i = true ↔ i.val < bisect p lo hi inside := by
  fun_induction bisect p lo hi inside with
  | case1 lo hi inside h mid hmid ih =>
    refine ih (fun j hj => ?_) hhi (by omega)
    exact hp j ⟨mid, by omega⟩ (Nat.le_of_lt_succ hj) hmid
  | case2 lo hi inside h mid hmid ih =>
    refine ih hlo (fun j hj => ?_) (by omega)
    cases hpj : p j with
    | false => rfl
    | true => exact absurd (hp ⟨mid, by omega⟩ j hj hpj) hmid
  | case3 lo hi inside h =>
    constructor
    · intro hpi
      refine Nat.lt_of_not_le fun hi' => ?_
      rw [hhi i (by omega)] at hpi
      cases hpi
    · exact hlo i

theorem partitionPoint_spec {n : Nat} {p : Fin n → Bool}
    (hp : ∀ i j : Fin n, i ≤ j → p j = true → p i = true) (i : Fin n) :
    p i = true ↔ i.val < partitionPoint p :=
  bisect_spec hp 0 n (Nat.le_refl n) (fun _ h => absurd h (Nat.not_lt_zero _))
    (fun j h => absurd j.isLt (Nat.not_lt.2 h)) (Nat.zero_le n) i

/-- A condition that holds everywhere stops holding behind the last place. -/
theorem partitionPoint_of_forall {n : Nat} {p : Fin n → Bool} (hp : ∀ i, p i = true) :
    partitionPoint p = n := by
  refine Nat.le_antisymm (partitionPoint_le p) (Nat.le_of_not_lt fun h => ?_)
  exact absurd ((partitionPoint_spec (fun i _ _ _ => hp i) ⟨_, h⟩).1 (hp _)) (Nat.lt_irrefl _)

theorem partitionPoint_congr {m n : Nat} {p : Fin m → Bool} {q : Fin n → Bool} (hmn : m = n)
    (hpq : ∀ i (hm : i < m) (hn : i < n), p ⟨i, hm⟩ = q ⟨i, hn⟩) :
    partitionPoint p = partitionPoint q := by
  subst hmn
  rw [show p = q from funext fun i => hpq i.val i.isLt i.isLt]

/-! ## Items -/

theorem Span.item_eq {width : Nat} (s : Span width) (i : Fin s.length) :
    s.item i = ((octets s.block).drop (s.start + i.val * width)).take width := by
  have hinside : ∀ k < width, s.start + i.val * width + k < s.block.size :=
    fun k hk => s.item_inside i.isLt hk
  refine List.ext_getElem ?_ fun k hk hk' => ?_
  · have hsize : (octets s.block).length = s.block.size := rfl
    rw [item, List.length_ofFn, List.length_take, List.length_drop, hsize, Nat.min_eq_left]
    cases width with
    | zero => exact Nat.zero_le _
    | succ w =>
      have := hinside w (Nat.lt_succ_self w)
      omega
  · rw [List.getElem_take, List.getElem_drop]
    exact List.getElem_ofFn hk

/-- Where all items take the same room, each is found at its place. -/
theorem flatMap_item {α : Type} {f : α → List UInt8} {width : Nat} (hf : ∀ a, (f a).length = width)
    {items : List α} {i : Nat} (h : i < items.length) :
    ((items.flatMap f).drop (i * width)).take width = f items[i] := by
  induction items generalizing i with
  | nil => cases h
  | cons a items ih =>
    rw [List.flatMap_cons]
    cases i with
    | zero => simp [List.take_left' (hf a)]
    | succ i =>
      rw [Nat.add_mul, Nat.one_mul, Nat.add_comm, ← List.drop_drop, List.drop_left' (hf a),
        ih (by simpa using h)]
      rfl

/-- The stored form of the entry at a place. -/
theorem tableBytes_item {es : List Entry} {i : Nat} (h : i < es.length) :
    ((tableBytes es).drop (i * Entry.size)).take Entry.size = es[i].bytes :=
  flatMap_item Entry.length_bytes h

namespace OrderedTable

variable {t u : OrderedTable} {es : List Entry} {id : UInt64}

/-! ## Entries -/

@[simp] theorem length_entries (t : OrderedTable) : t.entries.length = t.length := by
  simp [entries]

theorem getElem_entries (t : OrderedTable) {i : Nat} (h : i < t.entries.length) :
    t.entries[i] = t.entry ⟨i, by simpa using h⟩ := by
  simp [entries]

/-- A table holds the entries that stand where it starts. -/
theorem entries_eq_of_octets {front : List UInt8}
    (hblock : octets t.span.block = front ++ tableBytes es) (hstart : t.span.start = front.length)
    (hlength : t.length = es.length) : t.entries = es := by
  refine List.ext_getElem (by simpa using hlength) fun i hi hi' => ?_
  have hspan : i < t.span.length := Nat.lt_of_lt_of_eq hi t.length_entries
  have hitem : t.span.item ⟨i, hspan⟩ = es[i].bytes := by
    rw [Span.item_eq, hblock, hstart, ← List.drop_drop, List.drop_left]
    exact tableBytes_item hi'
  rw [getElem_entries, ← Entry.ofBytes_bytes es[i], ← hitem]
  rfl

/-- The table in the block of some entries holds these entries. -/
theorem entries_eq {es : List Entry} (hblock : t.span.block = tableBlock es)
    (hstart : t.span.start = 0) (hlength : t.length = es.length) : t.entries = es := by
  have hoctets : octets t.span.block = [] ++ tableBytes es := by
    rw [hblock]
    rfl
  exact entries_eq_of_octets hoctets hstart hlength

/-! ## Look-ups -/

/-- How many of some entries the bisection puts at or before an identifier. -/
def rankIn (es : List Entry) (id : UInt64) : Nat :=
  partitionPoint fun i : Fin es.length => decide (es[i].id ≤ id)

theorem rank_eq (t : OrderedTable) (id : UInt64) : t.rank id = rankIn t.entries id := by
  refine partitionPoint_congr (by simp) fun i hm hn => ?_
  simp [getElem_entries]

theorem rank_le (t : OrderedTable) (id : UInt64) : t.rank id ≤ t.entries.length := by
  rw [length_entries]
  exact partitionPoint_le fun i : Fin t.length => decide ((t.entry i).id ≤ id)

/-- A look-up takes the entry in front of the place where the identifiers exceed. -/
theorem find_eq (t : OrderedTable) (id : UInt64) :
    t.find id = match t.rank id with
      | 0 => none
      | i + 1 => t.entries[i]?.bind fun e => if e.id = id then some e.offset else none := by
  unfold find
  split
  · next h => rw [h]
  · next i h =>
    have hi : i < t.entries.length := Nat.lt_of_lt_of_le (h ▸ Nat.lt_succ_self i) (t.rank_le id)
    simp only [h, List.getElem?_eq_getElem hi, getElem_entries, Option.bind_some]

theorem find_congr (h : t.entries = u.entries) (id : UInt64) : t.find id = u.find id := by
  rw [find_eq, find_eq, rank_eq, rank_eq, h]

theorem mem_of_find {offset : UInt64} (h : t.find id = some offset) : ⟨id, offset⟩ ∈ t.entries := by
  rw [find_eq] at h
  split at h
  · cases h
  · next i _ =>
    obtain ⟨e, he, hif⟩ := Option.bind_eq_some_iff.1 h
    split at hif
    · next hid =>
      cases hif
      exact hid ▸ List.mem_of_getElem? he
    · cases hif

/-! ## Look-ups in ascending entries -/

/-- Of ascending entries the bisection leaves in front those that do not exceed. -/
theorem lt_rankIn_iff (hsorted : es.Pairwise fun a b => a.id ≤ b.id) (id : UInt64) {i : Nat}
    (hi : i < es.length) : i < rankIn es id ↔ es[i].id ≤ id := by
  have hle : ∀ i j : Fin es.length, i ≤ j → es[i].id ≤ es[j].id := by
    intro i j hij
    rcases Nat.lt_or_eq_of_le hij with hij | hij
    · exact List.pairwise_iff_getElem.1 hsorted _ _ i.isLt j.isLt hij
    · rw [Fin.ext hij]
      exact UInt64.le_refl _
  have hspec := partitionPoint_spec (p := fun i : Fin es.length => decide (es[i].id ≤ id))
    (fun i j hij hj => decide_eq_true (UInt64.le_trans (hle i j hij) (of_decide_eq_true hj)))
    ⟨i, hi⟩
  exact hspec.symm.trans decide_eq_true_iff

/-- Behind the bisection's answer the identifier does not occur. -/
theorem filter_drop_rankIn (hsorted : es.Pairwise fun a b => a.id ≤ b.id) (id : UInt64) :
    ((es.drop (rankIn es id)).filter fun e => e.id = id) = [] := by
  refine List.filter_eq_nil_iff.2 ?_
  intro e he hid
  obtain ⟨i, hi, rfl⟩ := List.mem_iff_getElem.1 he
  rw [List.length_drop] at hi
  rw [List.getElem_drop, decide_eq_true_iff] at hid
  have hlt := (lt_rankIn_iff hsorted id (i := rankIn es id + i) (by omega)).2
    (UInt64.le_of_eq hid)
  omega

/-- In front of a smaller identifier it does not occur. -/
theorem filter_take_of_lt (hsorted : es.Pairwise fun a b => a.id ≤ b.id) {i : Nat}
    (hi : i < es.length) (hlt : es[i].id < id) :
    ((es.take i).filter fun e => e.id = id) = [] := by
  refine List.filter_eq_nil_iff.2 ?_
  intro e he hid
  obtain ⟨j, hj, rfl⟩ := List.mem_iff_getElem.1 he
  rw [List.length_take] at hj
  rw [List.getElem_take, decide_eq_true_iff] at hid
  have hle := List.pairwise_iff_getElem.1 hsorted j i (by omega) hi (by omega)
  rw [hid] at hle
  exact absurd hlt (UInt64.not_lt.2 hle)

/-- Where the identifiers ascend the last entry with an identifier is found. -/
theorem find_of_ascending (hsorted : t.entries.Pairwise fun a b => a.id ≤ b.id) (id : UInt64) :
    t.find id = ((t.entries.filter fun e => e.id = id).getLast?).map Entry.offset := by
  have hfront : (t.entries.filter fun e => e.id = id)
      = (t.entries.take (t.rank id)).filter fun e => e.id = id := by
    conv => lhs; rw [← List.take_append_drop (t.rank id) t.entries]
    rw [List.filter_append, rank_eq, filter_drop_rankIn hsorted, List.append_nil]
  rw [find_eq, hfront]
  cases hr : t.rank id with
  | zero => rfl
  | succ i =>
    have hi : i < t.entries.length := Nat.lt_of_lt_of_le (hr ▸ Nat.lt_succ_self i) (t.rank_le id)
    simp only [List.getElem?_eq_getElem hi, Option.bind_some]
    rw [← List.take_append_getElem hi, List.filter_append]
    by_cases hid : t.entries[i].id = id
    · simp [hid]
    · have hle : t.entries[i].id ≤ id := by
        refine (lt_rankIn_iff hsorted id hi).1 ?_
        rw [← rank_eq, hr]
        exact Nat.lt_succ_self i
      rw [filter_take_of_lt hsorted hi (UInt64.lt_of_le_of_ne hle hid)]
      simp [hid]

/-- Where the identifiers ascend strictly every entry is found. -/
theorem find_of_mem (hsorted : t.entries.Pairwise fun a b => a.id < b.id) {e : Entry}
    (he : e ∈ t.entries) : t.find e.id = some e.offset := by
  obtain ⟨front, back, hsplit⟩ := List.append_of_mem he
  rw [find_of_ascending (hsorted.imp UInt64.le_of_lt)]
  rw [hsplit, List.pairwise_append, List.pairwise_cons] at hsorted
  have hback : (back.filter fun x => x.id = e.id) = [] := by
    refine List.filter_eq_nil_iff.2 ?_
    intro x hx hid
    have hlt := hsorted.2.1.1 x hx
    rw [of_decide_eq_true hid] at hlt
    exact UInt64.lt_irrefl _ hlt
  rw [hsplit, List.filter_append, List.filter_cons_of_pos (by simp), hback]
  simp

/-- Look-ups in a table of one entry. -/
theorem find_singleton {e : Entry} (h : t.entries = [e]) (id : UInt64) :
    t.find id = if e.id = id then some e.offset else none := by
  split
  · next hid =>
    subst hid
    exact find_of_mem (by simp [h]) (by simp [h])
  · next hid =>
    cases hfind : t.find id with
    | none => rfl
    | some offset =>
      have hmem := mem_of_find hfind
      rw [h, List.mem_singleton] at hmem
      exact absurd (congrArg Entry.id hmem).symm hid

/-- An identifier that no entry exceeds is looked for in the last entry. -/
theorem find_of_forall_le (h : ∀ e ∈ t.entries, e.id ≤ id) :
    t.find id = t.entries.getLast?.bind fun e => if e.id = id then some e.offset else none := by
  have hrank : t.rank id = t.entries.length := by
    rw [rank_eq]
    exact partitionPoint_of_forall fun i => decide_eq_true (h _ (List.getElem_mem _))
  rw [find_eq, hrank, List.getLast?_eq_getElem?]
  cases hlength : t.entries.length with
  | zero =>
    rw [List.length_eq_zero_iff.1 hlength]
    rfl
  | succ i => rfl

/-! ## Tables that answer alike -/

/-- Tables of one length that answer alike are the same if one ascends strictly and the other
ascends. -/
theorem entries_eq_of_find_eq (ht : t.entries.Pairwise fun a b => a.id < b.id)
    (hu : u.entries.Pairwise fun a b => a.id ≤ b.id) (hlength : t.length = u.length)
    (h : ∀ id, t.find id = u.find id) : t.entries = u.entries := by
  have hsubset : t.entries ⊆ u.entries := fun e he =>
    mem_of_find ((h e.id).symm.trans (find_of_mem ht he))
  have hperm : t.entries.Perm u.entries :=
    (List.subperm_of_subset (nodup_of_ascending ht) hsubset).perm_of_length_le (by simp [hlength])
  refine hperm.eq_of_pairwise ?_ (ht.imp UInt64.le_of_lt) hu
  intro a b ha hb hab hba
  have hid : a.id = b.id := UInt64.le_antisymm hab hba
  have hfind := find_of_mem ht ha
  rw [hid, find_of_mem ht (hperm.mem_iff.2 hb)] at hfind
  cases a
  cases b
  simp_all

end OrderedTable

end OffsetAtlas
