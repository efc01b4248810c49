/- Between two kept lines an alignment removes first and adds afterwards. -/
import ExportDiff.Proofs.LineDiff.Alignment
import Mathlib.Data.List.Chain

namespace ExportDiff.LineDiff
variable {α : Type}

/-- No addition is right before a removal. -/
def RemovalsFirst (steps : List (Step α)) : Prop :=
  steps.IsChain fun s t => s.kind = .added → t.kind ≠ .removed

theorem Step.kind_cases (s : Step α) : s.kind = .unchanged ∨ s.kind = .removed ∨ s.kind = .added := by
  cases s with
  | keep i j x => exact .inl rfl
  | remove i x => exact .inr (.inl rfl)
  | add j y => exact .inr (.inr rfl)

namespace RemovalsFirst

theorem additions {s : Step α} {steps : List (Step α)} (h : RemovalsFirst (s :: steps))
    (added : s.kind = .added) (changes : ∀ t ∈ steps, t.kind ≠ .unchanged) :
    ∀ t ∈ steps, t.kind = .added := by
  induction steps generalizing s with
  | nil =>
      intro t member
      cases member
  | cons t steps ih =>
      obtain ⟨next, rest⟩ := List.isChain_cons_cons.mp h
      have first : t.kind = .added :=
        (t.kind_cases.resolve_left (changes t List.mem_cons_self)).resolve_left (next added)
      have others := ih rest first fun u member => changes u (List.mem_cons_of_mem t member)
      exact List.forall_mem_cons.mpr ⟨first, others⟩

theorem split {run : List (Step α)} (h : RemovalsFirst run) (changes : ∀ s ∈ run, s.kind ≠ .unchanged) :
    ∃ removals additions, run = removals ++ additions ∧ (∀ s ∈ removals, s.kind = .removed) ∧
      ∀ s ∈ additions, s.kind = .added := by
  induction run with
  | nil => exact ⟨[], [], rfl, by simp, by simp⟩
  | cons s run ih =>
      obtain ⟨change, later⟩ := List.forall_mem_cons.mp changes
      obtain same | removed | added := s.kind_cases
      · exact (change same).elim
      · obtain ⟨removals, additions, rfl, all, others⟩ := ih h.tail later
        exact ⟨s :: removals, additions, rfl, List.forall_mem_cons.mpr ⟨removed, all⟩, others⟩
      · exact ⟨[], s :: run, rfl, by simp, List.forall_mem_cons.mpr ⟨added, h.additions added later⟩⟩

end RemovalsFirst

namespace Cell

def Orderly (c : Cell α) : Prop := RemovalsFirst c.steps.reverse

theorem orderly_iff {c : Cell α} {s : Step α} {steps : List (Step α)} (h : c.steps = s :: steps) :
    c.Orderly ↔ (∀ t ∈ steps.head?, t.kind = .added → s.kind ≠ .removed) ∧
      RemovalsFirst steps.reverse := by
  rw [Orderly, RemovalsFirst, RemovalsFirst, h, List.isChain_reverse, List.isChain_reverse,
    List.isChain_cons]

theorem Orderly.keep {c : Cell α} (h : c.Orderly) (i j : Nat) (x : α) : (c.keep i j x).Orderly :=
  (orderly_iff rfl).mpr ⟨fun _ _ _ => by simp [Step.kind], h⟩

theorem Orderly.add {c : Cell α} (h : c.Orderly) (j : Nat) (y : α) : (c.add j y).Orderly :=
  (orderly_iff rfl).mpr ⟨fun _ _ _ => by simp [Step.kind], h⟩

theorem Orderly.remove {c : Cell α} (h : c.Orderly) (i : Nat) (x : α)
    (last : ∀ t ∈ c.steps.head?, t.kind ≠ .added) : (c.remove i x).Orderly :=
  (orderly_iff rfl).mpr ⟨fun t head added => (last t head added).elim, h⟩

/-- A best cell that ends with an addition keeps no more than can be kept without the added line. -/
theorem Best.last_added {xs ys : List α} {c : Cell α} (h : Best xs ys c) {s : Step α}
    (last : s ∈ c.steps.head?) (added : s.kind = .added) :
    ∃ ys' y, ys = ys' ++ [y] ∧ ∃ zs : List α, zs.Sublist xs ∧ zs.Sublist ys' ∧ zs.length = c.kept := by
  obtain ⟨steps, same⟩ := List.head?_eq_some_iff.mp last
  have covers := h.covers
  rw [same, List.reverse_cons] at covers
  have right : (rightSteps steps.reverse).map Step.line ++ [s.line] = ys := by
    have lines := covers.rightLines
    have side : [s].filter (·.kind ≠ .removed) = [s] := by simp [added]
    rwa [rightSteps, List.filter_append, side, List.map_append, ← rightSteps] at lines
  have kept : keptSteps (steps.reverse ++ [s]) = keptSteps steps.reverse := by
    simp [keptSteps, added]
  refine ⟨_, s.line, right.symm, (keptSteps steps.reverse).map Step.line, ?_, ?_, ?_⟩
  · rw [← kept]
    exact covers.keptLines.1
  · refine List.Sublist.map _ (List.monotone_filter_right _ fun t unchanged => ?_)
    simp_all
  · rw [← h.kept, List.length_map, ← kept, ← List.reverse_cons, ← same, keptSteps, keptSteps,
      List.filter_reverse, List.length_reverse]

theorem Orderly.removeFirst {xs : List α} {c : Cell α} (h : c.Orderly) (best : Best xs [] c) (i : Nat)
    (x : α) : (c.remove i x).Orderly := by
  refine h.remove i x fun t last added => ?_
  obtain ⟨ys, y, none, _⟩ := best.last_added last added
  simp at none

/-- A removal is only taken when it keeps more than the addition would, and an addition right before
it would not have kept that many. -/
theorem Orderly.grow [DecidableEq α] {xs ys : List α} {x y : α} {diagonal above beside : Cell α}
    (ha : Best xs (ys ++ [y]) above) (hb : Best (xs ++ [x]) ys beside) (od : diagonal.Orderly)
    (oa : above.Orderly) (ob : beside.Orderly) (i j : Nat) :
    (Cell.grow i j x y diagonal above beside).Orderly := by
  unfold Cell.grow
  split
  · exact od.keep i j x
  · split
    · exact ob.add j y
    · next more =>
        refine oa.remove i x fun t last added => more ?_
        obtain ⟨ys', y', same, zs, left, right, length⟩ := ha.last_added last added
        rw [← (List.append_inj' same rfl).1] at right
        rw [← length]
        exact hb.most zs (left.trans (List.sublist_append_left xs [x])) right

end Cell

theorem firstRow_orderly {c : Cell α} (h : c.Orderly) (j : Nat) (ys : List α) :
    ∀ d ∈ firstRow j c ys, d.Orderly := by
  induction ys generalizing c j with
  | nil => exact List.forall_mem_singleton.mpr h
  | cons y ys ih => exact List.forall_mem_cons.mpr ⟨h, ih (h.add j y) (j + 1)⟩

section
variable [DecidableEq α]

theorem rowFrom_orderly {xs pre ys : List α} {x : α} {beside diagonal : Cell α} {row : List (Cell α)}
    (hb : Cell.Best (xs ++ [x]) pre beside) (hrow : RowOf xs pre ys (diagonal :: row))
    (ob : beside.Orderly) (orow : ∀ c ∈ diagonal :: row, c.Orderly) :
    ∀ c ∈ rowFrom xs.length x pre.length beside diagonal row ys, c.Orderly := by
  induction ys generalizing pre beside diagonal row with
  | nil =>
      cases hrow
      intro c member
      cases member
  | cons y ys ih =>
      cases hrow with
      | @more _ _ _ _ row hd hrest =>
          cases row with
          | nil => cases hrest
          | cons above row =>
              obtain ⟨od, orest⟩ := List.forall_mem_cons.mp orow
              have oa := orest above List.mem_cons_self
              have here := Cell.Orderly.grow hrest.head hb od oa ob xs.length pre.length
              have rest := ih (Cell.Best.grow hd hrest.head hb) hrest here orest
              rw [List.length_append] at rest
              exact List.forall_mem_cons.mpr ⟨here, rest⟩

theorem nextRow_orderly {xs ys : List α} {row : List (Cell α)} (h : RowOf xs [] ys row) (x : α)
    (orow : ∀ c ∈ row, c.Orderly) : ∀ c ∈ nextRow xs.length x ys row, c.Orderly := by
  cases row with
  | nil => cases h
  | cons c row =>
      have first := (orow c List.mem_cons_self).removeFirst h.head xs.length x
      exact List.forall_mem_cons.mpr ⟨first, rowFrom_orderly (h.head.remove x) h first orow⟩

theorem lastRow_orderly {xs ys : List α} {row : List (Cell α)} (h : RowOf xs [] ys row)
    (orow : ∀ c ∈ row, c.Orderly) (left : List α) : ∀ c ∈ lastRow ys xs.length left row, c.Orderly := by
  induction left generalizing xs row with
  | nil => exact orow
  | cons x left ih =>
      have rest := ih (nextRow_rowOf h x) (nextRow_orderly h x orow)
      rw [List.length_append] at rest
      exact rest

theorem align_orderly (left right : List α) : RemovalsFirst (align left right) := by
  have empty : (Cell.empty : Cell α).Orderly := List.isChain_nil
  have cells := lastRow_orderly (firstRow_rowOf Cell.best_empty right) (firstRow_orderly empty 0 right) left
  unfold align
  split
  · next c last => exact cells c (List.mem_of_getLast? last)
  · exact List.isChain_nil

/-- No addition is right before a removal; so in a run of changes all removals come before all
additions. -/
theorem align_removals_first (left right : List α) :
    (align left right).IsChain (fun s t => s.kind = .added → t.kind ≠ .removed) ∧
    ∀ before run after, align left right = before ++ run ++ after →
      (∀ s ∈ run, s.kind ≠ .unchanged) →
      ∃ removals additions, run = removals ++ additions ∧ (∀ s ∈ removals, s.kind = .removed) ∧
        ∀ s ∈ additions, s.kind = .added := by
  have ordered := align_orderly left right
  refine ⟨ordered, fun before run after whole changes => ?_⟩
  have within : RemovalsFirst run := List.IsChain.infix ordered ⟨before, after, whole.symm⟩
  exact within.split changes

end

/-- Two lines for two others, between lines that are kept. -/
theorem align_removals_first_swap :
    align [1, 2, 3, 4] [1, 5, 6, 4] =
      [.keep 0 0 1] ++ [.remove 1 2, .remove 2 3, .add 1 5, .add 2 6] ++ [.keep 3 3 4] ∧
    ∃ removals additions : List (Step Nat),
      [.remove 1 2, .remove 2 3, .add 1 5, .add 2 6] = removals ++ additions ∧
      (∀ s ∈ removals, s.kind = .removed) ∧ ∀ s ∈ additions, s.kind = .added :=
  ⟨by decide, (align_removals_first [1, 2, 3, 4] [1, 5, 6, 4]).2 [.keep 0 0 1] _ [.keep 3 3 4]
    (by decide) (by decide)⟩

end ExportDiff.LineDiff
