/- Aligning two lists of lines along a longest common subsequence. -/

namespace ExportDiff.LineDiff

/-- One step of an alignment, with the places of its line in the two lists, counted from zero. -/
inductive Step (α : Type) where
  | keep (left right : Nat) (line : α)
  | remove (left : Nat) (line : α)
  | add (right : Nat) (line : α)
  deriving DecidableEq

/-- An alignment of two initial parts: how many lines it keeps, and its steps, the last one first. -/
structure Cell (α : Type) where
  kept : Nat
  steps : List (Step α)

namespace Cell

def empty {α} : Cell α := ⟨0, []⟩

def keep {α} (c : Cell α) (i j : Nat) (line : α) : Cell α := ⟨c.kept + 1, .keep i j line :: c.steps⟩

def remove {α} (c : Cell α) (i : Nat) (line : α) : Cell α := ⟨c.kept, .remove i line :: c.steps⟩

def add {α} (c : Cell α) (j : Nat) (line : α) : Cell α := ⟨c.kept, .add j line :: c.steps⟩

/-- The cell of two longer parts from its three neighbours: `beside` lacks the right line, `above`
the left one, `diagonal` both. Equal lines are kept; else an addition is last unless the removal
keeps more. -/
def grow {α} [DecidableEq α] (i j : Nat) (x y : α) (diagonal above beside : Cell α) : Cell α :=
  if x = y then diagonal.keep i j x
  else if above.kept ≤ beside.kept then beside.add j y
  else above.remove i x

end Cell

/-- The cells of no left line against ever more right lines, from `c` on. -/
def firstRow {α} (j : Nat) (c : Cell α) : List α → List (Cell α)
  | [] => [c]
  | y :: ys => c :: firstRow (j + 1) (c.add j y) ys

/-- The rest of a row, `beside` being the cell before it and the row above starting at `diagonal`. -/
def rowFrom {α} [DecidableEq α] (i : Nat) (x : α) (j : Nat) (beside diagonal : Cell α) :
    List (Cell α) → List α → List (Cell α)
  | above :: row, y :: ys =>
      let c := Cell.grow i j x y diagonal above beside
      c :: rowFrom i x (j + 1) c above row ys
  | _, _ => []

/-- The row for one more left line. -/
def nextRow {α} [DecidableEq α] (i : Nat) (x : α) (right : List α) : List (Cell α) → List (Cell α)
  | [] => []
  | c :: row => c.remove i x :: rowFrom i x 0 (c.remove i x) c row right

def lastRow {α} [DecidableEq α] (right : List α) : Nat → List α → List (Cell α) → List (Cell α)
  | _, [], row => row
  | i, x :: xs, row => lastRow right (i + 1) xs (nextRow i x right row)

/-- The steps from one list of lines to the other, in order. -/
def align {α} [DecidableEq α] (left right : List α) : List (Step α) :=
  match (lastRow right 0 left (firstRow 0 .empty right)).getLast? with
  | some c => c.steps.reverse
  | none => []

end ExportDiff.LineDiff
