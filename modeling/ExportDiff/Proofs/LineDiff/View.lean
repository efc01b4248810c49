/- Both views show one alignment, row by row, and every line of a side is there once, behind its number. -/
import ExportDiff.Proofs.LineDiff.Alignment

namespace ExportDiff.LineDiff

/-- What a line of the stream has in common with the rows of the two panes beside it. A gap shows
nothing, and the stream follows the side that shows a line. -/
structure Carries (l r : PaneRow) (s : StreamLine) : Prop where
  leftNumber : s.leftNumber = l.number
  rightNumber : s.rightNumber = r.number
  left : l.kind ≠ .gap → s.text = l.text ∧ s.kind = l.kind
  right : r.kind ≠ .gap → s.text = r.text ∧ s.kind = r.kind
  shown : l.kind ≠ .gap ∨ r.kind ≠ .gap

namespace Carries
variable (l r : Nat) (line : String)

theorem keep : Carries ⟨some l, line, .unchanged⟩ ⟨some r, line, .unchanged⟩
    ⟨some l, some r, line, .unchanged⟩ where
  leftNumber := rfl
  rightNumber := rfl
  left := fun _ => ⟨rfl, rfl⟩
  right := fun _ => ⟨rfl, rfl⟩
  shown := .inl nofun

theorem remove : Carries ⟨some l, line, .removed⟩ .gap ⟨some l, none, line, .removed⟩ where
  leftNumber := rfl
  rightNumber := rfl
  left := fun _ => ⟨rfl, rfl⟩
  right := fun gap => absurd rfl gap
  shown := .inl nofun

theorem add : Carries .gap ⟨some r, line, .added⟩ ⟨none, some r, line, .added⟩ where
  leftNumber := rfl
  rightNumber := rfl
  left := fun gap => absurd rfl gap
  right := fun _ => ⟨rfl, rfl⟩
  shown := .inr nofun

end Carries

/-- The rows of a pane that show a line. -/
def lineRows (pane : List PaneRow) : List PaneRow := pane.filter (·.kind ≠ .gap)

@[simp] theorem lineRows_nil : lineRows [] = [] := rfl

@[simp] theorem lineRows_gap (pane : List PaneRow) : lineRows (.gap :: pane) = lineRows pane := rfl

@[simp] theorem lineRows_line {row : PaneRow} (line : row.kind ≠ .gap) (pane : List PaneRow) :
    lineRows (row :: pane) = row :: lineRows pane :=
  List.filter_cons_of_pos (by simpa using line)

def PaneRow.entry (row : PaneRow) : Option Nat × String := (row.number, row.text)

/-- Lines behind their numbers, which go up from `first`. -/
def numberedFrom (first : Nat) (lines : List String) : List (Option Nat × String) :=
  (lines.zipIdx first).map fun (line, n) => (some n, line)

@[simp] theorem numberedFrom_nil (first : Nat) : numberedFrom first [] = [] := rfl

@[simp] theorem numberedFrom_cons (first : Nat) (line : String) (lines : List String) :
    numberedFrom first (line :: lines) = (some first, line) :: numberedFrom (first + 1) lines := rfl

/-! The lines at the places of the steps are those that the steps carry. -/

section
variable {left right : List String} {i j : Nat} {line : String}

theorem lineIn_of_getElem? {lines : List String} (found : lines[i]? = some line) : lineIn lines i = line := by
  rw [lineIn, List.getD_eq_getElem?_getD, found, Option.getD_some]

theorem Step.Fits.lineIn_keep (h : (Step.keep i j line).Fits left right) :
    lineIn left i = line ∧ lineIn right j = line :=
  ⟨lineIn_of_getElem? h.1, lineIn_of_getElem? h.2⟩

theorem Step.Fits.lineIn_remove (h : (Step.remove i line).Fits left right) : lineIn left i = line :=
  lineIn_of_getElem? h

theorem Step.Fits.lineIn_add (h : (Step.add j line).Fits left right) : lineIn right j = line :=
  lineIn_of_getElem? h

end

section
variable {left right : List String} {steps : List (Step String)} (l r : Nat)

theorem length_panesFrom : (panesFrom left right l r steps).left.length = steps.length ∧
    (panesFrom left right l r steps).right.length = steps.length := by
  induction steps generalizing l r with
  | nil => simp [panesFrom]
  | cons step steps ih => cases step <;> simp [panesFrom, ih]

theorem length_streamFrom : (streamFrom left right l r steps).length = steps.length := by
  induction steps generalizing l r with
  | nil => simp [streamFrom]
  | cons step steps ih => cases step <;> simp [streamFrom, ih]

/-- Two counts that begin alike stay alike, so the panes and the stream tell the same numbers. -/
theorem panesFrom_carries (fits : ∀ s ∈ steps, s.Fits left right) :
    List.Forall₂ (fun row line => Carries row.1 row.2 line)
      ((panesFrom left right l r steps).left.zip (panesFrom left right l r steps).right)
      (streamFrom left right l r steps) := by
  induction steps generalizing l r with
  | nil => exact .nil
  | cons step steps ih =>
      obtain ⟨fit, rest⟩ := List.forall_mem_cons.mp fits
      cases step with
      | keep i j line =>
          rw [panesFrom, streamFrom, fit.lineIn_keep.1, fit.lineIn_keep.2]
          exact .cons (.keep l r line) (ih (l + 1) (r + 1) rest)
      | remove i line => exact .cons (.remove l (lineIn left i)) (ih (l + 1) r rest)
      | add j line => exact .cons (.add r (lineIn right j)) (ih l (r + 1) rest)

theorem leftRows_panesFrom (fits : ∀ s ∈ steps, s.Fits left right) :
    (lineRows (panesFrom left right l r steps).left).map PaneRow.entry =
      numberedFrom l ((leftSteps steps).map Step.line) := by
  induction steps generalizing l r with
  | nil => simp [panesFrom, leftSteps]
  | cons step steps ih =>
      obtain ⟨fit, rest⟩ := List.forall_mem_cons.mp fits
      cases step with
      | keep i j line =>
          simpa [panesFrom, leftSteps, Step.kind, Step.line, PaneRow.entry, fit.lineIn_keep.1] using
            ih (l + 1) (r + 1) rest
      | remove i line =>
          simpa [panesFrom, leftSteps, Step.kind, Step.line, PaneRow.entry, fit.lineIn_remove] using ih (l + 1) r rest
      | add j line => simpa [panesFrom, leftSteps, Step.kind] using ih l (r + 1) rest

theorem rightRows_panesFrom (fits : ∀ s ∈ steps, s.Fits left right) :
    (lineRows (panesFrom left right l r steps).right).map PaneRow.entry =
      numberedFrom r ((rightSteps steps).map Step.line) := by
  induction steps generalizing l r with
  | nil => simp [panesFrom, rightSteps]
  | cons step steps ih =>
      obtain ⟨fit, rest⟩ := List.forall_mem_cons.mp fits
      cases step with
      | keep i j line =>
          simpa [panesFrom, rightSteps, Step.kind, Step.line, PaneRow.entry, fit.lineIn_keep.2] using
            ih (l + 1) (r + 1) rest
      | remove i line => simpa [panesFrom, rightSteps, Step.kind] using ih (l + 1) r rest
      | add j line =>
          simpa [panesFrom, rightSteps, Step.kind, Step.line, PaneRow.entry, fit.lineIn_add] using ih l (r + 1) rest

end

/-- The panes and the stream are as long as each other and agree row by row, no row is empty on both
sides, and without its gaps a pane shows the lines of its content, numbered from one. -/
theorem views_agree (left right : Option String) :
    (panes left right).left.length = (unified left right).length ∧
    (panes left right).right.length = (unified left right).length ∧
    List.Forall₂ (fun row line => Carries row.1 row.2 line) (sideBySide left right) (unified left right) ∧
    (lineRows (panes left right).left).map PaneRow.entry = numberedFrom 1 (contentLines left) ∧
    (lineRows (panes left right).right).map PaneRow.entry = numberedFrom 1 (contentLines right) := by
  have covers : Covers (contentLines left) (contentLines right) (steps left right) := align_covers _ _
  have length : (panes left right).left.length = (steps left right).length ∧
      (panes left right).right.length = (steps left right).length := length_panesFrom 1 1
  have stream : (unified left right).length = (steps left right).length := length_streamFrom 1 1
  -- Each count numbers the lines of the steps on its side, and those are the lines of the content.
  refine ⟨length.1.trans stream.symm, length.2.trans stream.symm, panesFrom_carries 1 1 covers.fits, ?_, ?_⟩
  · rw [panes, leftRows_panesFrom 1 1 covers.fits, covers.leftLines]
  · rw [panes, rightRows_panesFrom 1 1 covers.fits, covers.rightLines]

example : unified (some "a\nb") (some "b\nc") =
    [⟨some 1, none, "a", .removed⟩, ⟨some 2, some 1, "b", .unchanged⟩, ⟨none, some 2, "c", .added⟩] := by
  decide

end ExportDiff.LineDiff
