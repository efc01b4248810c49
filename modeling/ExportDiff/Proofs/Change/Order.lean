/- The order of a report is one stable sort by rank. -/
import ExportDiff.Proofs.Change.Summary

namespace ExportDiff.Change

def hasSeverity (v : Severity) (i : Item) : Bool := i.rating.severity = v

/-- The second list has the items of the first sorted by rank, those of one severity in their old order. -/
structure StableSort (items sorted : List Item) : Prop where
  ranks : sorted.Pairwise rankLE
  ties : ∀ v, sorted.filter (hasSeverity v) = items.filter (hasSeverity v)

section
variable {items sorted sorted' : List Item} {i j : Item}

theorem hasSeverity_iff {v : Severity} : hasSeverity v i = true ↔ i.rating.severity = v := decide_eq_true_iff

theorem hasSeverity_self (i : Item) : hasSeverity i.rating.severity i = true := hasSeverity_iff.mpr rfl

theorem mem_of_ties (ties : ∀ v, sorted.filter (hasSeverity v) = sorted'.filter (hasSeverity v))
    (member : i ∈ sorted) : i ∈ sorted' := by
  have own : i ∈ sorted.filter (hasSeverity i.rating.severity) := List.mem_filter.mpr ⟨member, hasSeverity_self i⟩
  rw [ties] at own
  exact (List.mem_filter.mp own).1

/-- The first item of a sorted list ranks before any item that the list has. -/
theorem rankLE_of_mem (h : (i :: sorted).Pairwise rankLE) (member : j ∈ i :: sorted) : rankLE i j := by
  rcases List.mem_cons.mp member with rfl | later
  · exact Nat.le_refl _
  · exact (List.pairwise_cons.mp h).1 j later

theorem eq_of_ties (h : sorted.Pairwise rankLE) (h' : sorted'.Pairwise rankLE)
    (ties : ∀ v, sorted.filter (hasSeverity v) = sorted'.filter (hasSeverity v)) : sorted = sorted' := by
  induction sorted generalizing sorted' with
  | nil =>
      refine (List.eq_nil_iff_forall_not_mem.mpr fun j member => ?_).symm
      exact List.not_mem_nil (mem_of_ties (fun v => (ties v).symm) member)
  | cons i sorted ih =>
      cases sorted' with
      | nil => exact absurd (mem_of_ties ties List.mem_cons_self) List.not_mem_nil
      | cons j sorted' =>
          have before : rankLE i j := rankLE_of_mem h (mem_of_ties (fun v => (ties v).symm) List.mem_cons_self)
          have behind : rankLE j i := rankLE_of_mem h' (mem_of_ties ties List.mem_cons_self)
          have severity := Severity.rank_injective (Nat.le_antisymm before behind)
          -- Both lists begin with the first item of that severity.
          have same := ties i.rating.severity
          rw [List.filter_cons_of_pos (hasSeverity_self i), severity,
            List.filter_cons_of_pos (hasSeverity_self j)] at same
          obtain ⟨rfl, _⟩ := List.cons.inj same
          rw [ih (List.pairwise_cons.mp h).2 (List.pairwise_cons.mp h').2 fun v => ?_]
          have here := ties v
          rw [List.filter_cons, List.filter_cons] at here
          split at here
          · exact (List.cons.inj here).2
          · exact here

/-- There is only one way to sort items stably. -/
theorem StableSort.unique (h : StableSort items sorted) (h' : StableSort items sorted') : sorted = sorted' :=
  eq_of_ties h.ranks h'.ranks fun v => (h.ties v).trans (h'.ties v).symm

/-- What is sorted in whatever way keeps the order of ties if it still has the items of each severity one
behind another. -/
theorem StableSort.of_sublist (ranks : sorted.Pairwise rankLE) (perm : sorted.Perm items)
    (kept : ∀ v, (items.filter (hasSeverity v)).Sublist sorted) : StableSort items sorted := by
  refine ⟨ranks, fun v => ?_⟩
  have within := (kept v).filter (hasSeverity v)
  simp only [List.filter_filter, Bool.and_self] at within
  exact (within.eq_of_length (perm.symm.filter _).length_eq).symm

/-- Among items of one severity every order is sorted. -/
theorem sorted_filter_hasSeverity (v : Severity) (items : List Item) :
    (items.filter (hasSeverity v)).Pairwise rankLE := by
  refine List.pairwise_of_forall_mem_list fun i hi j hj => ?_
  have left := hasSeverity_iff.mp (List.mem_filter.mp hi).2
  have right := hasSeverity_iff.mp (List.mem_filter.mp hj).2
  rw [rankLE, left, right]

/-- A part that is told by the severity has all items of a severity or none. -/
theorem filter_part (part : Severity → Bool) (v : Severity) (items : List Item) :
    (items.filter fun i => part i.rating.severity).filter (hasSeverity v) =
      if part v then items.filter (hasSeverity v) else [] := by
  have known (i : Item) : (hasSeverity v i && part i.rating.severity) = (hasSeverity v i && part v) := by
    cases same : hasSeverity v i with
    | false => rfl
    | true => rw [hasSeverity_iff.mp same]
  rw [List.filter_filter, funext known]
  cases part v <;> simp

end

theorem mergeSort_stable (items : List Item) : StableSort items (items.mergeSort (rankLE · ·)) := by
  have trans (i j k : Item) (hij : decide (rankLE i j) = true) (hjk : decide (rankLE j k) = true) :
      decide (rankLE i k) = true :=
    decide_eq_true (Nat.le_trans (of_decide_eq_true hij) (of_decide_eq_true hjk))
  have total (i j : Item) : (decide (rankLE i j) || decide (rankLE j i)) = true := by
    rw [Bool.or_eq_true, decide_eq_true_iff, decide_eq_true_iff]
    exact Nat.le_total _ _
  refine .of_sublist ?_ (List.mergeSort_perm items _) fun v => ?_
  · simpa using List.pairwise_mergeSort trans total items
  · exact List.sublist_mergeSort trans total (by simpa using sorted_filter_hasSeverity v items) List.filter_sublist

theorem sortByRank_stable (items : List Item) : StableSort items (sortByRank items) := by
  refine .of_sublist (sortByRank_sorted items) (sortByRank_perm items) fun v => ?_
  rw [sortByRank_eq]
  exact List.sublist_insertionSort (sorted_filter_hasSeverity v items) List.filter_sublist

/-- Each severity is in one of the two parts, and absent from the other. -/
theorem reportOrder_stable (items : List Item) : StableSort items (reportOrder items) := by
  refine ⟨reportOrder_sorted items, fun v => ?_⟩
  rw [reportOrder, List.filter_append, (sortByRank_stable _).ties, (sortByRank_stable _).ties,
    filter_part Severity.isMeaningful, filter_part (!Severity.isMeaningful ·)]
  cases v.isMeaningful <;> simp

/-- The order of a report is the one stable sort of all items by rank: it only moves them, no rank comes before
a smaller one and so no minor item before a meaningful one, items of one severity keep their order, and an
ordered report stays as it is. -/
theorem reportOrder_one_sort (items : List Item) :
    reportOrder items = items.mergeSort (rankLE · ·) ∧
      (reportOrder items).Perm items ∧
      (reportOrder items).Pairwise rankLE ∧
      (reportOrder items).Pairwise (fun i j => j.rating.severity.isMeaningful → i.rating.severity.isMeaningful) ∧
      (∀ v, (reportOrder items).filter (hasSeverity v) = items.filter (hasSeverity v)) ∧
      reportOrder (reportOrder items) = reportOrder items := by
  have stable := reportOrder_stable items
  refine ⟨stable.unique (mergeSort_stable items), reportOrder_perm items, stable.ranks, ?_, stable.ties, ?_⟩
  · refine stable.ranks.imp fun {i j} before meaningful => ?_
    rw [Severity.isMeaningful_iff] at meaningful ⊢
    exact Nat.le_trans before meaningful
  · have again : StableSort (reportOrder items) (reportOrder items) := ⟨stable.ranks, fun _ => rfl⟩
    exact (reportOrder_stable (reportOrder items)).unique again

end ExportDiff.Change
