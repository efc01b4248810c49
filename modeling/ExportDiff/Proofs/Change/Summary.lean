/- The order of a report only moves items, by rank, and a summary does not depend on their order. -/
import ExportDiff.Change.Summary
import Mathlib.Data.List.Sort

namespace ExportDiff.Change

def rankLE (i j : Item) : Prop := i.rating.severity.rank ≤ j.rating.severity.rank

instance : DecidableRel rankLE := fun i j =>
  inferInstanceAs (Decidable (i.rating.severity.rank ≤ j.rating.severity.rank))

instance : Std.Total rankLE := ⟨fun _ _ => Nat.le_total _ _⟩

instance : IsTrans Item rankLE := ⟨fun _ _ _ => Nat.le_trans⟩

theorem insertByRank_eq (i : Item) (items : List Item) :
    insertByRank i items = items.orderedInsert rankLE i := by
  induction items with
  | nil => rfl
  | cons j items ih =>
      rw [insertByRank, ih]
      rfl

theorem sortByRank_eq (items : List Item) : sortByRank items = items.insertionSort rankLE := by
  induction items with
  | nil => rfl
  | cons i items ih => rw [sortByRank, insertByRank_eq, ih, List.insertionSort_cons]

theorem sortByRank_perm (items : List Item) : (sortByRank items).Perm items := by
  rw [sortByRank_eq]
  exact List.perm_insertionSort rankLE items

theorem reportOrder_perm (items : List Item) : (reportOrder items).Perm items :=
  ((sortByRank_perm _).append (sortByRank_perm _)).trans (List.filter_append_perm _ items)

theorem sortByRank_sorted (items : List Item) : (sortByRank items).Pairwise rankLE := by
  rw [sortByRank_eq]
  exact List.pairwise_insertionSort rankLE items

theorem Severity.rank_injective : Function.Injective Severity.rank := by
  intro s t h
  cases s <;> cases t <;> first | rfl | cases h

theorem Severity.isMeaningful_iff (s : Severity) : s.isMeaningful = true ↔ s.rank ≤ 1 := by
  cases s <;> decide

theorem reportOrder_sorted (items : List Item) : (reportOrder items).Pairwise rankLE := by
  refine List.pairwise_append.mpr ⟨sortByRank_sorted _, sortByRank_sorted _, ?_⟩
  intro i hi j hj
  have meaningful := (List.mem_filter.mp ((sortByRank_perm _).mem_iff.mp hi)).2
  have minor := (List.mem_filter.mp ((sortByRank_perm _).mem_iff.mp hj)).2
  rw [Severity.isMeaningful_iff] at meaningful
  rw [Bool.not_eq_true', Bool.eq_false_iff, ne_eq, Severity.isMeaningful_iff] at minor
  change i.rating.severity.rank ≤ j.rating.severity.rank
  omega

theorem ranks_sorted {items : List Item} (sorted : items.Pairwise rankLE) :
    ((items.map (·.rating.severity)).map Severity.rank).Pairwise (· ≤ ·) := by
  rw [List.map_map]
  exact List.pairwise_map.mpr sorted

/-- Sorted lists of the same items show the same severities, place by place. -/
theorem severities_eq_of_perm {items items' : List Item} (h : items.Perm items')
    (sorted : items.Pairwise rankLE) (sorted' : items'.Pairwise rankLE) :
    items.map (·.rating.severity) = items'.map (·.rating.severity) := by
  apply List.map_injective_iff.mpr Severity.rank_injective
  exact ((h.map _).map _).eq_of_pairwise (fun m n _ _ => Nat.le_antisymm) (ranks_sorted sorted)
    (ranks_sorted sorted')

theorem countIn_comm (c d : Category) (counts : List (Category × Nat)) :
    countIn c (countIn d counts) = countIn d (countIn c counts) := by
  simp only [countIn, List.map_map]
  refine List.map_congr_left fun (e, n) _ => ?_
  by_cases hc : e = c <;> by_cases hd : e = d <;> simp_all

theorem Summary.record_comm (s : Summary) (i j : Item) : (s.record i).record j = (s.record j).record i := by
  unfold record
  cases i.rating.severity <;> cases j.rating.severity <;> simp only [countIn_comm j.category]

theorem summarize_perm {items items' : List Item} (h : items.Perm items') :
    summarize items = summarize items' := by
  unfold summarize
  exact h.foldl_eq' (fun i _ j _ s => Summary.record_comm s i j) Summary.empty

end ExportDiff.Change
