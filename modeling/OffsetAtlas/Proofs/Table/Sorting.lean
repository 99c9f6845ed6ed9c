/-
OffsetAtlas.Proofs.Table.Sorting — entries sorted by identifier.

A sort by identifier says nothing of entries that share one. That they keep their order is said by
`filter_sortById`; where no two share one the result ascends strictly (`sortById_strictly`), and
then nothing is left to the sort: entries that ascend strictly are told by what is found among them
(`eq_of_ascending`).
-/
import Mathlib.Data.List.Perm.Basic
import OffsetAtlas.Proofs.Table.Last

namespace OffsetAtlas

variable {entries as bs : List Entry}

@[simp] theorem length_sortById (entries : List Entry) :
    (sortById entries).length = entries.length := by
  simp [sortById]

theorem byId_trans (a b c : Entry) (hab : decide (a.id ≤ b.id) = true)
    (hbc : decide (b.id ≤ c.id) = true) : decide (a.id ≤ c.id) = true :=
  decide_eq_true (UInt64.le_trans (of_decide_eq_true hab) (of_decide_eq_true hbc))

theorem byId_total (a b : Entry) : (decide (a.id ≤ b.id) || decide (b.id ≤ a.id)) = true := by
  simpa using UInt64.le_total a.id b.id

theorem sortById_ascending (entries : List Entry) :
    (sortById entries).Pairwise fun a b => a.id ≤ b.id := by
  refine List.Pairwise.imp ?_ (List.pairwise_mergeSort byId_trans byId_total entries)
  intro a b h
  exact of_decide_eq_true h

theorem sortById_perm (entries : List Entry) : (sortById entries).Perm entries :=
  List.mergeSort_perm entries _

/-- Sorting keeps the entries of each identifier in their order. -/
theorem filter_sortById (entries : List Entry) (id : UInt64) :
    ((sortById entries).filter fun e => e.id = id) = entries.filter fun e => e.id = id := by
  have hsame : (entries.filter fun e => e.id = id).Pairwise fun a b =>
      decide (a.id ≤ b.id) = true := by
    refine List.pairwise_of_forall_mem_list fun a ha b hb => ?_
    have hida := of_decide_eq_true (List.mem_filter.1 ha).2
    have hidb := of_decide_eq_true (List.mem_filter.1 hb).2
    exact decide_eq_true (UInt64.le_of_eq (hida.trans hidb.symm))
  have hsub := List.sublist_mergeSort byId_trans byId_total hsame List.filter_sublist
  have hfilter := hsub.filter fun e => decide (e.id = id)
  rw [List.filter_filter] at hfilter
  simp only [Bool.and_self] at hfilter
  exact (hfilter.eq_of_length ((sortById_perm entries).filter _).length_eq.symm).symm

/-- Sorting changes nothing that is sorted. -/
theorem sortById_of_ascending (hsorted : entries.Pairwise fun a b => a.id < b.id) :
    sortById entries = entries :=
  List.mergeSort_of_pairwise (hsorted.imp fun h => decide_eq_true (UInt64.le_of_lt h))

/-! ## Different identifiers -/

/-- Where no two entries share an identifier they ascend strictly. -/
theorem sortById_strictly (h : (entries.map Entry.id).Nodup) :
    (sortById entries).Pairwise fun a b => a.id < b.id := by
  have hids : ((sortById entries).map Entry.id).Nodup :=
    ((sortById_perm entries).map Entry.id).nodup_iff.2 h
  have hne := List.pairwise_map.1 hids
  exact ((sortById_ascending entries).and hne).imp fun hab => UInt64.lt_of_le_of_ne hab.1 hab.2

/-- Entries whose identifiers differ differ. -/
theorem nodup_of_ascending (h : as.Pairwise fun a b => a.id < b.id) : as.Nodup := by
  refine h.imp ?_
  rintro a b hlt rfl
  exact UInt64.lt_irrefl _ hlt

/-- Entries that ascend strictly are told by what is found among them. -/
theorem eq_of_ascending (has : as.Pairwise fun a b => a.id < b.id)
    (hbs : bs.Pairwise fun a b => a.id < b.id) (h : ∀ id, lastOf as id = lastOf bs id) :
    as = bs := by
  have hmem : ∀ e, e ∈ as ↔ e ∈ bs := by
    intro e
    rw [← lastOf_eq_some_iff_mem has, ← lastOf_eq_some_iff_mem hbs, h]
  have hperm : as.Perm bs :=
    (List.perm_ext_iff_of_nodup (nodup_of_ascending has) (nodup_of_ascending hbs)).2 hmem
  refine hperm.eq_of_pairwise (fun a b _ _ hab hba => ?_) has hbs
  exact absurd hba (UInt64.lt_asymm hab)

end OffsetAtlas
