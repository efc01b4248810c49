/- The two views of an alignment: panes side by side, and one stream of lines. -/
import ExportDiff.LineDiff.Alignment
import ExportDiff.Text.Lines

namespace ExportDiff.LineDiff

/-- What happened to a line; a gap stands where one side has none. -/
inductive LineKind where
  | unchanged
  | removed
  | added
  | gap
  deriving DecidableEq

def LineKind.name : LineKind → String
  | .unchanged => "unchanged"
  | .removed => "removed"
  | .added => "added"
  | .gap => "empty"

/-- A row of one pane; lines are counted from one, and a gap has no number. -/
structure PaneRow where
  number : Option Nat
  text : String
  kind : LineKind
  deriving DecidableEq

def PaneRow.gap : PaneRow := ⟨none, "", .gap⟩

/-- A line of the stream with its number on each side. -/
structure StreamLine where
  leftNumber : Option Nat
  rightNumber : Option Nat
  text : String
  kind : LineKind
  deriving DecidableEq

/-- Two panes that stand side by side. -/
structure Panes where
  left : List PaneRow
  right : List PaneRow

/-- The line at a place; no step of an alignment has a place beyond its lines. -/
def lineIn (lines : List String) (place : Nat) : String := lines.getD place ""

section
variable (left right : List String)

/-- The panes of the steps between two contents, `l` and `r` being the numbers of the next lines. Each
side counts its own lines: a gap on one side takes no number there. -/
def panesFrom (l r : Nat) : List (Step String) → Panes
  | [] => ⟨[], []⟩
  | .keep i j _ :: steps =>
      let rest := panesFrom (l + 1) (r + 1) steps
      ⟨⟨some l, lineIn left i, .unchanged⟩ :: rest.left, ⟨some r, lineIn right j, .unchanged⟩ :: rest.right⟩
  | .remove i _ :: steps =>
      let rest := panesFrom (l + 1) r steps
      ⟨⟨some l, lineIn left i, .removed⟩ :: rest.left, .gap :: rest.right⟩
  | .add j _ :: steps =>
      let rest := panesFrom l (r + 1) steps
      ⟨.gap :: rest.left, ⟨some r, lineIn right j, .added⟩ :: rest.right⟩

/-- The stream of the steps, with the same two counts. -/
def streamFrom (l r : Nat) : List (Step String) → List StreamLine
  | [] => []
  | .keep i _ _ :: steps => ⟨some l, some r, lineIn left i, .unchanged⟩ :: streamFrom (l + 1) (r + 1) steps
  | .remove i _ :: steps => ⟨some l, none, lineIn left i, .removed⟩ :: streamFrom (l + 1) r steps
  | .add j _ :: steps => ⟨none, some r, lineIn right j, .added⟩ :: streamFrom l (r + 1) steps

end

/-- The lines of a content; no content has none. -/
def contentLines : Option String → List String
  | some s => Text.lines s
  | none => []

def steps (left right : Option String) : List (Step String) :=
  align (contentLines left) (contentLines right)

def panes (left right : Option String) : Panes :=
  panesFrom (contentLines left) (contentLines right) 1 1 (steps left right)

/-- The two panes, row by row. -/
def sideBySide (left right : Option String) : List (PaneRow × PaneRow) :=
  (panes left right).left.zip (panes left right).right

def unified (left right : Option String) : List StreamLine :=
  streamFrom (contentLines left) (contentLines right) 1 1 (steps left right)

end ExportDiff.LineDiff
