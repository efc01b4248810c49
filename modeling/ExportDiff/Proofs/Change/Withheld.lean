/- A content that is not known hides no change: without it only more files can be reported as modified. -/
import ExportDiff.Proofs.Change.FileDiff
import ExportDiff.Proofs.Related

namespace ExportDiff.Change
open Snapshot

/-- The same file, or the same without its content. -/
inductive Withholds : FileRecord → FileRecord → Prop
  | known (f) : Withholds f f
  | withheld (f) : Withholds f { f with content := none }

namespace Withholds
variable {f g l l' r r' : FileRecord}

theorem path (h : Withholds f g) : g.path = f.path := by
  cases h <;> rfl

theorem hash (h : Withholds f g) : g.hash = f.hash := by
  cases h <;> rfl

theorem eq_of_content (h : Withholds f g) (known : g.content ≠ none) : g = f := by
  cases h with
  | known => rfl
  | withheld => exact absurd rfl known

theorem sameContents (hl : Withholds l l') (hr : Withholds r r') (h : SameContents l' r') :
    SameContents l r := by
  obtain ⟨a, b, left, right, _⟩ := id h
  rwa [hl.eq_of_content (by simp [left]), hr.eq_of_content (by simp [right])] at h

end Withholds

theorem lastFile?_withheld {files files' : List FileRecord} (h : List.Forall₂ Withholds files files')
    (key : String) : Option.Rel Withholds (lastFile? files key) (lastFile? files' key) := by
  refine find?_rel (List.forall₂_reverse_iff.mpr h) ?_
  intro f g same
  rw [same.path]

namespace RealChange
variable {l l' r r' : Option FileRecord} {change : ChangeKind} {old new : Option String}

theorem withheld (h : RealChange l r change old new) (hl : Option.Rel Withholds l l')
    (hr : Option.Rel Withholds r r') : RealChange l' r' change old new := by
  cases h with
  | added r =>
      cases hl
      cases hr with
      | some hr =>
          rw [← hr.path]
          exact .added _
  | removed l =>
      cases hr
      cases hl with
      | some hl =>
          rw [← hl.path]
          exact .removed _
  | modified hash contents =>
      cases hl with
      | some hl =>
          cases hr with
          | some hr =>
              rw [← hl.path, ← hr.path]
              refine .modified ?_ fun same => contents (hl.sameContents hr same)
              rwa [hl.hash, hr.hash]

/-- What changes once contents are withheld has changed before, or is a file on both sides with a content
that is not known. -/
theorem of_withheld (h : RealChange l' r' change old new) (hl : Option.Rel Withholds l l')
    (hr : Option.Rel Withholds r r') : RealChange l r change old new ∨
      change = .modified ∧ ∃ f g, l' = some f ∧ r' = some g ∧ (f.content = none ∨ g.content = none) := by
  cases h with
  | added r =>
      cases hl
      cases hr with
      | some hr =>
          rw [hr.path]
          exact .inl (.added _)
  | removed l =>
      cases hr
      cases hl with
      | some hl =>
          rw [hl.path]
          exact .inl (.removed _)
  | @modified f g hash contents =>
      by_cases known : f.content = none ∨ g.content = none
      · exact .inr ⟨rfl, f, g, rfl, rfl, known⟩
      · rw [not_or] at known
        cases hl with
        | some hl =>
            cases hr with
            | some hr =>
                rw [hl.eq_of_content known.1, hr.eq_of_content known.2] at hash contents ⊢
                exact .inl (.modified hash contents)

end RealChange

/-- Two items that report the same change of a file. -/
structure Item.SameChange (i j : Item) : Prop where
  key : j.key = i.key
  change : j.change = i.change
  leftRef : j.leftRef = i.leftRef
  rightRef : j.rightRef = i.rightRef
  category : j.category = i.category
  kindLabel : j.kindLabel = i.kindLabel

section
variable {lineLimit : Int} {left left' right right' : List FileRecord}

theorem sameChange_of_reported {i : Item} (h : i ∈ (compareFiles lineLimit left right).items)
    (real : RealChange (lastFile? left' i.key) (lastFile? right' i.key) i.change i.leftRef i.rightRef) :
    ∃ j ∈ (compareFiles lineLimit left' right').items, i.SameChange j := by
  obtain ⟨j, member, key, change, leftRef, rightRef⟩ := reported_iff.mpr real
  have labels := labels_of_mem h
  have labels' := labels_of_mem member
  rw [key, ← labels.1, ← labels.2] at labels'
  exact ⟨j, member, key, change, leftRef, rightRef, labels'.1, labels'.2⟩

/-- Every change is still reported when contents are withheld on either side. What is reported only then
is a modified file, one of whose contents is not known. -/
theorem compareFiles_withheld (lineLimit : Int) (hl : List.Forall₂ Withholds left left')
    (hr : List.Forall₂ Withholds right right') :
    (∀ i ∈ (compareFiles lineLimit left right).items,
      ∃ j ∈ (compareFiles lineLimit left' right').items, i.SameChange j) ∧
    ∀ j ∈ (compareFiles lineLimit left' right').items,
      j.key ∉ (compareFiles lineLimit left right).items.map (·.key) →
      j.change = .modified ∧ ∃ f g, lastFile? left' j.key = some f ∧ lastFile? right' j.key = some g ∧
        (f.content = none ∨ g.content = none) := by
  constructor
  · intro i member
    have real := reported_iff.mp ⟨i, member, rfl, rfl, rfl, rfl⟩
    exact sameChange_of_reported member
      (real.withheld (lastFile?_withheld hl i.key) (lastFile?_withheld hr i.key))
  · intro j member new
    have real := reported_iff.mp ⟨j, member, rfl, rfl, rfl, rfl⟩
    refine (real.of_withheld (lastFile?_withheld hl j.key) (lastFile?_withheld hr j.key)).resolve_left ?_
    intro before
    obtain ⟨i, there, key, _⟩ := reported_iff.mpr before
    exact new (List.mem_map.mpr ⟨i, there, key⟩)

end

/-- A flow that is the same without its stamp. -/
def stampedFlow (hash stamp : String) : FileRecord :=
  ⟨"a/flow.xml", hash, 1, some ("<flow timestamp=\"" ++ stamp ++ "\"/>")⟩

def withheldFlow (hash : String) : FileRecord := ⟨"a/flow.xml", hash, 1, none⟩

/-- Where one of the stamps is not known, the flow is reported. -/
theorem compareFiles_withheld_flow :
    List.Forall₂ Withholds [stampedFlow "a" "08:00"] [stampedFlow "a" "08:00"] ∧
    List.Forall₂ Withholds [stampedFlow "b" "09:00"] [withheldFlow "b"] ∧
    (compareFiles 50 [stampedFlow "a" "08:00"] [stampedFlow "b" "09:00"]).items.map (·.key) = [] ∧
    (compareFiles 50 [stampedFlow "a" "08:00"] [withheldFlow "b"]).items.map (·.key) = ["a/flow.xml"] ∧
    ∀ j ∈ (compareFiles 50 [stampedFlow "a" "08:00"] [withheldFlow "b"]).items, j.change = .modified := by
  have left : List.Forall₂ Withholds [stampedFlow "a" "08:00"] [stampedFlow "a" "08:00"] :=
    .cons (.known _) .nil
  have right : List.Forall₂ Withholds [stampedFlow "b" "09:00"] [withheldFlow "b"] :=
    .cons (.withheld (stampedFlow "b" "09:00")) .nil
  have none : (compareFiles 50 [stampedFlow "a" "08:00"] [stampedFlow "b" "09:00"]).items.map (·.key) = [] := by
    decide +kernel
  refine ⟨left, right, none, by decide +kernel, ?_⟩
  intro j member
  exact ((compareFiles_withheld 50 left right).2 j member (by rw [none]; exact List.not_mem_nil)).1

end ExportDiff.Change
