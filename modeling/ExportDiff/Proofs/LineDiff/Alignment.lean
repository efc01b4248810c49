/- An alignment covers both lists of lines, and no other one keeps more of them. -/
import ExportDiff.LineDiff.View
import Mathlib.Data.List.Basic
import Mathlib.Order.Bounds.Defs

namespace ExportDiff.LineDiff
variable {α : Type}

namespace Step

def kind : Step α → LineKind
  | .keep _ _ _ => .unchanged
  | .remove _ _ => .removed
  | .add _ _ => .added

/-- The place of the line on the left, or -1 where that side has none. -/
def leftIndex : Step α → Int
  | .keep i _ _ | .remove i _ => i
  | .add _ _ => -1

def rightIndex : Step α → Int
  | .keep _ j _ | .add j _ => j
  | .remove _ _ => -1

def line : Step α → α
  | .keep _ _ x | .remove _ x | .add _ x => x

/-- The line stands at the places that the step tells. -/
def Fits (left right : List α) : Step α → Prop
  | .keep i j x => left[i]? = some x ∧ right[j]? = some x
  | .remove i x => left[i]? = some x
  | .add j y => right[j]? = some y

theorem Fits.append {left right : List α} {s : Step α} (h : s.Fits left right) (xs ys : List α) :
    s.Fits (left ++ xs) (right ++ ys) := by
  have grow {l : List α} {i : Nat} {x : α} (hx : l[i]? = some x) (zs : List α) :
      (l ++ zs)[i]? = some x := by
    rw [List.getElem?_append_left (List.getElem?_eq_some_iff.mp hx).1]
    exact hx
  cases s with
  | keep i j x => exact ⟨grow h.1 xs, grow h.2 ys⟩
  | remove i x => exact grow h xs
  | add j y => exact grow h ys

end Step

def leftSteps (steps : List (Step α)) : List (Step α) := steps.filter (·.kind ≠ .added)

def rightSteps (steps : List (Step α)) : List (Step α) := steps.filter (·.kind ≠ .removed)

def keptSteps (steps : List (Step α)) : List (Step α) := steps.filter (·.kind = .unchanged)

def changes (steps : List (Step α)) : Nat := steps.countP (·.kind ≠ .unchanged)

/-- Steps that go through each list once, from its first line to its last. -/
structure Covers (left right : List α) (steps : List (Step α)) : Prop where
  lefts : (leftSteps steps).map Step.leftIndex = (List.range left.length).map Int.ofNat
  rights : (rightSteps steps).map Step.rightIndex = (List.range right.length).map Int.ofNat
  fits : ∀ s ∈ steps, s.Fits left right

namespace Covers

theorem nil : Covers ([] : List α) [] [] := ⟨rfl, rfl, fun _ h => nomatch h⟩

theorem fits_snoc {left right : List α} {steps : List (Step α)} (h : Covers left right steps)
    (xs ys : List α) {s : Step α} (hs : s.Fits (left ++ xs) (right ++ ys)) :
    ∀ t ∈ steps ++ [s], t.Fits (left ++ xs) (right ++ ys) := by
  intro t ht
  rcases List.mem_append.mp ht with ht | ht
  · exact (h.fits t ht).append xs ys
  · rw [List.mem_singleton.mp ht]
    exact hs

theorem keep {left right : List α} {steps : List (Step α)} (h : Covers left right steps) (x : α) :
    Covers (left ++ [x]) (right ++ [x]) (steps ++ [.keep left.length right.length x]) where
  lefts := by simpa [leftSteps, Step.kind, Step.leftIndex, List.range_succ] using h.lefts
  rights := by simpa [rightSteps, Step.kind, Step.rightIndex, List.range_succ] using h.rights
  fits := h.fits_snoc [x] [x] (by simp [Step.Fits])

theorem remove {left right : List α} {steps : List (Step α)} (h : Covers left right steps) (x : α) :
    Covers (left ++ [x]) right (steps ++ [.remove left.length x]) where
  lefts := by simpa [leftSteps, Step.kind, Step.leftIndex, List.range_succ] using h.lefts
  rights := by simpa [rightSteps, Step.kind] using h.rights
  fits := by
    have hs : (Step.remove left.length x).Fits (left ++ [x]) (right ++ []) := by simp [Step.Fits]
    simpa only [List.append_nil] using h.fits_snoc [x] [] hs

theorem add {left right : List α} {steps : List (Step α)} (h : Covers left right steps) (y : α) :
    Covers left (right ++ [y]) (steps ++ [.add right.length y]) where
  lefts := by simpa [leftSteps, Step.kind] using h.lefts
  rights := by simpa [rightSteps, Step.kind, Step.rightIndex, List.range_succ] using h.rights
  fits := by
    have hs : (Step.add right.length y).Fits (left ++ []) (right ++ [y]) := by simp [Step.Fits]
    simpa only [List.append_nil] using h.fits_snoc [] [y] hs

end Covers

/-- Steps whose indices count through a list, and whose lines stand there, spell the list. -/
theorem lines_of_indices {l : List α} {steps : List (Step α)} {index : Step α → Int}
    (order : steps.map index = (List.range l.length).map Int.ofNat)
    (found : ∀ s ∈ steps, l[(index s).toNat]? = some s.line) : steps.map Step.line = l := by
  have looked : (steps.map Step.line).map some = (steps.map index).map (fun n => l[n.toNat]?) := by
    rw [List.map_map, List.map_map]
    exact List.map_congr_left fun s hs => (found s hs).symm
  rw [order, List.map_map] at looked
  apply List.ext_getElem?
  intro n
  have here := congrArg (fun r => r[n]?) looked
  have size := congrArg List.length looked
  simp only [List.length_map, List.length_range] at size
  by_cases hn : n < l.length
  · simpa [List.getElem?_range hn, hn, size] using here
  · rw [List.getElem?_eq_none (by simpa [size] using hn), List.getElem?_eq_none (by omega)]

namespace Covers

theorem leftLines {left right : List α} {steps : List (Step α)} (h : Covers left right steps) :
    (leftSteps steps).map Step.line = left := by
  apply lines_of_indices h.lefts
  intro s hs
  obtain ⟨member, side⟩ := List.mem_filter.mp hs
  have fit := h.fits s member
  cases s with
  | keep i j x => exact fit.1
  | remove i x => exact fit
  | add j y => simp [Step.kind] at side

theorem rightLines {left right : List α} {steps : List (Step α)} (h : Covers left right steps) :
    (rightSteps steps).map Step.line = right := by
  apply lines_of_indices h.rights
  intro s hs
  obtain ⟨member, side⟩ := List.mem_filter.mp hs
  have fit := h.fits s member
  cases s with
  | keep i j x => exact fit.2
  | remove i x => simp [Step.kind] at side
  | add j y => exact fit

theorem keptLines {left right : List α} {steps : List (Step α)} (h : Covers left right steps) :
    ((keptSteps steps).map Step.line).Sublist left ∧ ((keptSteps steps).map Step.line).Sublist right := by
  constructor
  · rw [← h.leftLines]
    refine List.Sublist.map _ (List.monotone_filter_right _ ?_)
    intro s hs
    simp_all
  · rw [← h.rightLines]
    refine List.Sublist.map _ (List.monotone_filter_right _ ?_)
    intro s hs
    simp_all

theorem changes_add {left right : List α} {steps : List (Step α)} (h : Covers left right steps) :
    changes steps + 2 * (keptSteps steps).length = left.length + right.length := by
  have split : changes steps + 2 * (keptSteps steps).length =
      (leftSteps steps).length + (rightSteps steps).length := by
    clear h
    induction steps with
    | nil => rfl
    | cons s steps ih =>
        cases s <;> simp [changes, keptSteps, leftSteps, rightSteps, Step.kind] at ih ⊢ <;> omega
  have lefts := congrArg List.length h.leftLines
  have rights := congrArg List.length h.rightLines
  rw [List.length_map] at lefts rights
  rw [split, lefts, rights]

end Covers

def commonLengths (xs ys : List α) : Set Nat :=
  {n | ∃ zs : List α, zs.Sublist xs ∧ zs.Sublist ys ∧ zs.length = n}

theorem dropLast_sublist {zs xs : List α} {x : α} (h : zs.Sublist (xs ++ [x])) : zs.dropLast.Sublist xs := by
  have turned := h.reverse.tail
  rw [List.reverse_concat, List.tail_cons, List.tail_reverse] at turned
  exact List.reverse_sublist.mp turned

/-- A common subsequence of two longer lists with different last lines leaves out one of them. -/
theorem common_of_ne {zs xs ys : List α} {x y : α} (hxy : x ≠ y) (hx : zs.Sublist (xs ++ [x]))
    (hy : zs.Sublist (ys ++ [y])) : zs.Sublist xs ∨ zs.Sublist ys := by
  obtain ⟨us, u, rfl, hus, hu⟩ := List.sublist_append_iff.mp hx
  obtain ⟨vs, v, same, hvs, hv⟩ := List.sublist_append_iff.mp hy
  rcases List.sublist_singleton.mp hu with rfl | rfl
  · exact .inl (by simpa only [List.append_nil] using hus)
  · rcases List.sublist_singleton.mp hv with rfl | rfl
    · exact .inr (by simpa only [same, List.append_nil] using hvs)
    · exact absurd (by simpa using (List.append_inj' same rfl).2) hxy

namespace Cell

/-- The cell of two initial parts: its steps cover them, and keep as many lines as can be kept. -/
structure Best (xs ys : List α) (c : Cell α) : Prop where
  covers : Covers xs ys c.steps.reverse
  kept : (keptSteps c.steps).length = c.kept
  most : ∀ zs : List α, zs.Sublist xs → zs.Sublist ys → zs.length ≤ c.kept

theorem best_empty : Best ([] : List α) [] .empty where
  covers := .nil
  kept := rfl
  most := fun zs hx _ => by simp [List.sublist_nil.mp hx]

theorem Best.remove {xs : List α} {c : Cell α} (h : Best xs [] c) (x : α) :
    Best (xs ++ [x]) [] (c.remove xs.length x) where
  covers := by simpa only [Cell.remove, List.reverse_cons] using h.covers.remove x
  kept := by simpa [Cell.remove, keptSteps, Step.kind] using h.kept
  most := fun zs _ hy => by simp [List.sublist_nil.mp hy]

theorem Best.add {ys : List α} {c : Cell α} (h : Best [] ys c) (y : α) :
    Best [] (ys ++ [y]) (c.add ys.length y) where
  covers := by simpa only [Cell.add, List.reverse_cons] using h.covers.add y
  kept := by simpa [Cell.add, keptSteps, Step.kind] using h.kept
  most := fun zs hx _ => by simp [List.sublist_nil.mp hx]

/-- Keeping two equal last lines never costs a line elsewhere; of two different last lines at most
one can be kept. -/
theorem Best.grow [DecidableEq α] {xs ys : List α} {x y : α} {diagonal above beside : Cell α}
    (hd : Best xs ys diagonal) (ha : Best xs (ys ++ [y]) above) (hb : Best (xs ++ [x]) ys beside) :
    Best (xs ++ [x]) (ys ++ [y]) (Cell.grow xs.length ys.length x y diagonal above beside) := by
  unfold Cell.grow
  split
  case isTrue same =>
    subst same
    refine ⟨?_, ?_, ?_⟩
    · simpa only [Cell.keep, List.reverse_cons] using hd.covers.keep x
    · simpa [Cell.keep, keptSteps, Step.kind] using hd.kept
    · intro zs hx hy
      have rest := hd.most _ (dropLast_sublist hx) (dropLast_sublist hy)
      rw [List.length_dropLast] at rest
      change zs.length ≤ diagonal.kept + 1
      omega
  case isFalse differ =>
    have bound (zs : List α) (hx : zs.Sublist (xs ++ [x])) (hy : zs.Sublist (ys ++ [y])) :
        zs.length ≤ above.kept ∨ zs.length ≤ beside.kept :=
      (common_of_ne differ hx hy).imp (ha.most zs · hy) (hb.most zs hx ·)
    split
    case isTrue le =>
      refine ⟨?_, ?_, fun zs hx hy => ?_⟩
      · simpa only [Cell.add, List.reverse_cons] using hb.covers.add y
      · simpa [Cell.add, keptSteps, Step.kind] using hb.kept
      · exact (bound zs hx hy).elim (fun h => Nat.le_trans h le) id
    case isFalse lt =>
      refine ⟨?_, ?_, fun zs hx hy => ?_⟩
      · simpa only [Cell.remove, List.reverse_cons] using ha.covers.remove x
      · simpa [Cell.remove, keptSteps, Step.kind] using ha.kept
      · exact (bound zs hx hy).elim id (fun h => Nat.le_trans h (Nat.le_of_not_le lt))

end Cell

/-- The cells of `xs` against `pre`, and against ever more of the lines that follow it. -/
inductive RowOf (xs : List α) : List α → List α → List (Cell α) → Prop
  | last {pre c} : Cell.Best xs pre c → RowOf xs pre [] [c]
  | more {pre y ys c row} : Cell.Best xs pre c → RowOf xs (pre ++ [y]) ys row →
      RowOf xs pre (y :: ys) (c :: row)

theorem RowOf.head {xs pre ys : List α} {c : Cell α} {row : List (Cell α)}
    (h : RowOf xs pre ys (c :: row)) : Cell.Best xs pre c := by
  cases h with
  | last hc => exact hc
  | more hc _ => exact hc

theorem firstRow_rowOf {pre : List α} {c : Cell α} (hc : Cell.Best [] pre c) (ys : List α) :
    RowOf [] pre ys (firstRow pre.length c ys) := by
  induction ys generalizing pre c with
  | nil => exact .last hc
  | cons y ys ih =>
      have rest := ih (hc.add y)
      rw [List.length_append] at rest
      exact .more hc rest

theorem RowOf.getLast {xs pre ys : List α} {row : List (Cell α)} (h : RowOf xs pre ys row) :
    ∃ c, row.getLast? = some c ∧ Cell.Best xs (pre ++ ys) c := by
  induction h with
  | last hc => exact ⟨_, List.getLast?_singleton, by rw [List.append_nil]; exact hc⟩
  | more _ hrest ih =>
      obtain ⟨c, last, best⟩ := ih
      rw [List.append_assoc] at best
      exact ⟨c, by rw [List.getLast?_cons, last, Option.getD_some], best⟩

section
variable [DecidableEq α]

theorem rowFrom_rowOf {xs pre ys : List α} {x : α} {beside diagonal : Cell α} {row : List (Cell α)}
    (hb : Cell.Best (xs ++ [x]) pre beside) (hrow : RowOf xs pre ys (diagonal :: row)) :
    RowOf (xs ++ [x]) pre ys
      (beside :: rowFrom xs.length x pre.length beside diagonal row ys) := by
  induction ys generalizing pre beside diagonal row with
  | nil =>
      cases hrow
      exact .last hb
  | cons y ys ih =>
      cases hrow with
      | @more _ _ _ _ row hd hrest =>
          cases row with
          | nil => cases hrest
          | cons above row =>
              have hc := Cell.Best.grow hd hrest.head hb
              have rest := ih hc hrest
              rw [List.length_append] at rest
              exact .more hb rest

theorem nextRow_rowOf {xs ys : List α} {row : List (Cell α)} (h : RowOf xs [] ys row) (x : α) :
    RowOf (xs ++ [x]) [] ys (nextRow xs.length x ys row) := by
  cases row with
  | nil => cases h
  | cons c row => exact rowFrom_rowOf (h.head.remove x) h

theorem lastRow_rowOf {xs ys : List α} {row : List (Cell α)} (h : RowOf xs [] ys row) (left : List α) :
    RowOf (xs ++ left) [] ys (lastRow ys xs.length left row) := by
  induction left generalizing xs row with
  | nil => simpa only [List.append_nil, lastRow] using h
  | cons x left ih =>
      have rest := ih (nextRow_rowOf h x)
      rw [List.length_append, List.append_assoc] at rest
      exact rest

theorem align_eq (left right : List α) :
    ∃ c, align left right = c.steps.reverse ∧ Cell.Best left right c := by
  obtain ⟨c, last, best⟩ := (lastRow_rowOf (firstRow_rowOf Cell.best_empty right) left).getLast
  refine ⟨c, ?_, best⟩
  have found : (lastRow right 0 left (firstRow 0 .empty right)).getLast? = some c := last
  rw [align, found]

theorem align_covers (left right : List α) : Covers left right (align left right) := by
  obtain ⟨c, same, best⟩ := align_eq left right
  rw [same]
  exact best.covers

theorem align_keeps_most {left right zs : List α} (hl : zs.Sublist left) (hr : zs.Sublist right) :
    zs.length ≤ (keptSteps (align left right)).length := by
  obtain ⟨c, same, best⟩ := align_eq left right
  have count : (keptSteps (align left right)).length = c.kept := by
    rw [same, ← best.kept, keptSteps, List.filter_reverse, List.length_reverse, keptSteps]
  rw [count]
  exact best.most zs hl hr

/-- The steps go through both lists in order, every kept step pairs equal lines, a side without a
line shows -1, and nothing that goes through both lists keeps more or changes less. -/
theorem align_complete_optimal (left right : List α) :
    (leftSteps (align left right)).map Step.leftIndex = (List.range left.length).map Int.ofNat ∧
    (rightSteps (align left right)).map Step.rightIndex = (List.range right.length).map Int.ofNat ∧
    (∀ s ∈ align left right, match s.kind with
      | .unchanged => left[s.leftIndex.toNat]? = some s.line ∧ right[s.rightIndex.toNat]? = some s.line
      | .removed => left[s.leftIndex.toNat]? = some s.line ∧ s.rightIndex = -1
      | .added => s.leftIndex = -1 ∧ right[s.rightIndex.toNat]? = some s.line
      | .gap => False) ∧
    IsGreatest (commonLengths left right) (keptSteps (align left right)).length ∧
    ∀ steps, Covers left right steps → changes (align left right) ≤ changes steps := by
  have covers := align_covers left right
  refine ⟨covers.lefts, covers.rights, ?_, ⟨?_, ?_⟩, ?_⟩
  · intro s hs
    have fit := covers.fits s hs
    cases s with
    | keep i j x => exact fit
    | remove i x => exact ⟨fit, rfl⟩
    | add j y => exact ⟨rfl, fit⟩
  · exact ⟨_, covers.keptLines.1, covers.keptLines.2, List.length_map _⟩
  · rintro n ⟨zs, hl, hr, rfl⟩
    exact align_keeps_most hl hr
  · intro steps other
    have most := align_keeps_most other.keptLines.1 other.keptLines.2
    rw [List.length_map] at most
    have here := covers.changes_add
    have there := other.changes_add
    omega

end

example : align [1, 2, 1] [2, 1, 3] = [.remove 0 1, .keep 1 0 2, .keep 2 1 1, .add 2 3] := by
  decide

end ExportDiff.LineDiff
