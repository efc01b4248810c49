/- What the two snapshots hold of one thing: at least one side has it. -/

namespace ExportDiff.Change

inductive Sides (α : Type) where
  | left (l : α)
  | right (r : α)
  | both (l r : α)
  deriving DecidableEq

namespace Sides
variable {α β : Type}

def left? : Sides α → Option α
  | .left l | .both l _ => some l
  | .right _ => none

def right? : Sides α → Option α
  | .right r | .both _ r => some r
  | .left _ => none

/-- The newer of the two. -/
def newest : Sides α → α
  | .left l => l
  | .right r | .both _ r => r

def toList : Sides α → List α
  | .left l => [l]
  | .right r => [r]
  | .both l r => [l, r]

def map (f : α → β) : Sides α → Sides β
  | .left l => .left (f l)
  | .right r => .right (f r)
  | .both l r => .both (f l) (f r)

/-- The sides that are there, if any is. -/
def ofOptions? : Option α → Option α → Option (Sides α)
  | some l, some r => some (.both l r)
  | some l, none => some (.left l)
  | none, some r => some (.right r)
  | none, none => none

end Sides

end ExportDiff.Change
