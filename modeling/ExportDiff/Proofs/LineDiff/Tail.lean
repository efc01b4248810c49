/- A common tail is kept line by line, and leaves the alignment of what precedes it alone. -/
import ExportDiff.LineDiff.Alignment
import Mathlib.Data.List.Induction

namespace ExportDiff.LineDiff
variable {α : Type} [DecidableEq α]

/-- The cell of two initial parts, both given from their last line to their first. -/
def cellOf : List α → List α → Cell α
  | [], [] => .empty
  | [], y :: ys => (cellOf [] ys).add ys.length y
  | x :: xs, [] => (cellOf xs []).remove xs.length x
  | x :: xs, y :: ys =>
      Cell.grow xs.length ys.length x y (cellOf xs ys) (cellOf xs (y :: ys)) (cellOf (x :: xs) ys)
termination_by xs ys => xs.length + ys.length

/-- The cells of one left part against a right part that grows line by line. -/
def cellsFrom (xs pre : List α) : List α → List (Cell α)
  | [] => [cellOf xs pre]
  | y :: ys => cellOf xs pre :: cellsFrom xs (y :: pre) ys

theorem firstRow_eq_cells (pre ys : List α) :
    firstRow pre.length (cellOf [] pre) ys = cellsFrom [] pre ys := by
  induction ys generalizing pre with
  | nil => rfl
  | cons y ys ih =>
      have next : (cellOf [] pre).add pre.length y = cellOf [] (y :: pre) := by rw [cellOf]
      rw [firstRow, cellsFrom, next]
      exact congrArg (cellOf [] pre :: ·) (ih (y :: pre))

theorem rowFrom_eq_cells (x : α) (xs pre ys : List α) {row : List (Cell α)}
    (above : cellOf xs pre :: row = cellsFrom xs pre ys) :
    cellOf (x :: xs) pre :: rowFrom xs.length x pre.length (cellOf (x :: xs) pre) (cellOf xs pre) row ys =
      cellsFrom (x :: xs) pre ys := by
  induction ys generalizing pre row with
  | nil =>
      obtain rfl : row = [] := (List.cons.inj above).2
      rfl
  | cons y ys ih =>
      obtain rfl : row = cellsFrom xs (y :: pre) ys := (List.cons.inj above).2
      obtain ⟨rest, split⟩ : ∃ rest, cellsFrom xs (y :: pre) ys = cellOf xs (y :: pre) :: rest := by
        cases ys with
        | nil => exact ⟨[], rfl⟩
        | cons z zs => exact ⟨_, rfl⟩
      have next : Cell.grow xs.length pre.length x y (cellOf xs pre) (cellOf xs (y :: pre))
          (cellOf (x :: xs) pre) = cellOf (x :: xs) (y :: pre) := by rw [cellOf]
      rw [split, rowFrom, cellsFrom, next]
      exact congrArg (cellOf (x :: xs) pre :: ·) (ih (y :: pre) split.symm)

theorem nextRow_eq_cells (x : α) (xs ys : List α) :
    nextRow xs.length x ys (cellsFrom xs [] ys) = cellsFrom (x :: xs) [] ys := by
  have first : (cellOf xs []).remove xs.length x = cellOf (x :: xs) [] := by rw [cellOf]
  cases ys with
  | nil =>
      rw [cellsFrom, nextRow, first]
      exact rowFrom_eq_cells x xs [] [] rfl
  | cons y ys =>
      rw [cellsFrom, nextRow, first]
      exact rowFrom_eq_cells x xs [] (y :: ys) rfl

theorem lastRow_eq_cells (left xs ys : List α) :
    lastRow ys xs.length left (cellsFrom xs [] ys) = cellsFrom (left.reverse ++ xs) [] ys := by
  induction left generalizing xs with
  | nil => rfl
  | cons x left ih =>
      rw [lastRow, nextRow_eq_cells, List.reverse_cons, List.append_assoc]
      exact ih (x :: xs)

theorem getLast?_cellsFrom (xs pre ys : List α) :
    (cellsFrom xs pre ys).getLast? = some (cellOf xs (ys.reverse ++ pre)) := by
  induction ys generalizing pre with
  | nil => rfl
  | cons y ys ih =>
      rw [cellsFrom, List.getLast?_cons, ih, List.reverse_cons, List.append_assoc]
      rfl

/-- The last cell of the table is that of the two whole lists. -/
theorem align_eq_cellOf (left right : List α) :
    align left right = (cellOf left.reverse right.reverse).steps.reverse := by
  have empty : (Cell.empty : Cell α) = cellOf [] [] := by rw [cellOf]
  have table : lastRow right 0 left (firstRow 0 .empty right) = cellsFrom left.reverse [] right := by
    have first := firstRow_eq_cells [] right
    have last := lastRow_eq_cells left [] right
    rw [List.append_nil] at last
    rw [empty]
    exact (congrArg _ first).trans last
  rw [align, table, getLast?_cellsFrom, List.append_nil]

/-- Two equal last lines are kept, whatever else they are equal to. -/
theorem align_concat (left right : List α) (x : α) :
    align (left ++ [x]) (right ++ [x]) = align left right ++ [.keep left.length right.length x] := by
  rw [align_eq_cellOf, align_eq_cellOf, List.reverse_concat, List.reverse_concat, cellOf, Cell.grow,
    if_pos rfl, Cell.keep, List.reverse_cons, List.length_reverse, List.length_reverse]

/-- With the same lines behind both lists, the alignment goes on by keeping each of them. -/
theorem align_common_tail (left right tail : List α) :
    align (left ++ tail) (right ++ tail) =
      align left right ++ tail.mapIdx fun k x => .keep (left.length + k) (right.length + k) x := by
  induction tail using List.reverseRecOn with
  | nil => simp
  | append_singleton tail x ih =>
      rw [← List.append_assoc, ← List.append_assoc, align_concat, ih, List.mapIdx_concat,
        List.append_assoc, List.length_append, List.length_append]

/-- One side has no lines before the tail, and a line of the tail also stands before it on the other. -/
example : align [1] [2, 1, 1] = align [] [2, 1] ++ [.keep 0 2 1] := by
  decide

end ExportDiff.LineDiff
