/- The note of an excerpt looks at which lines there are, not at how often: it is right but for repeated lines. -/
import ExportDiff.Proofs.Change.Excerpt
import Mathlib.Data.List.Perm.Basic

namespace ExportDiff.Change
open Text

/-- The lines that are not blank, without the white space around them, each as often as it stands there. -/
def solidRows (content : String) : List String := ((feedLines content).map trimmed).filter (· ≠ "")

/-- The excerpt ends with the note that only white space and the order of the lines differ. -/
def NotesSameLines (left right : String) (limit : Int) : Prop :=
  (feedLines (modifiedExcerpt left right limit)).getLast? = some sameLinesNote

/-- A line that one of the contents repeats stands as often in the other. -/
def SameRepeats (left right : String) : Prop :=
  ∀ line, 1 < (solidRows left).count line ∨ 1 < (solidRows right).count line →
    (solidRows left).count line = (solidRows right).count line

theorem mem_solidRows {content line : String} : line ∈ solidRows content ↔ line ∈ solidLines content := by
  rw [mem_solidLines, solidRows, List.mem_filter, List.mem_map, decide_eq_true_iff, and_comm]

theorem notesSameLines_iff {left right : String} {limit : Int} :
    NotesSameLines left right limit ↔ ∀ line, line ∈ solidRows left ↔ line ∈ solidRows right := by
  rw [NotesSameLines, feedLines_modifiedExcerpt, getLast?_excerptLines, missingLines_eq_nil_iff,
    missingLines_eq_nil_iff, ← Finset.Subset.antisymm_iff, Finset.ext_iff]
  exact forall_congr' fun line => iff_congr mem_solidRows.symm mem_solidRows.symm

/-- Lines that are there on both sides and repeated equally often are the same lines in some order. -/
theorem perm_solidRows_iff {left right : String} {limit : Int} :
    (solidRows left).Perm (solidRows right) ↔ NotesSameLines left right limit ∧ SameRepeats left right := by
  rw [List.perm_iff_count, notesSameLines_iff]
  constructor
  · intro same
    refine ⟨fun line => ?_, fun line _ => same line⟩
    rw [← List.count_pos_iff, ← List.count_pos_iff, same line]
  · rintro ⟨there, repeats⟩ line
    have present := there line
    rw [← List.count_pos_iff, ← List.count_pos_iff] at present
    by_cases repeated : 1 < (solidRows left).count line ∨ 1 < (solidRows right).count line
    · exact repeats line repeated
    · -- Neither side has the line twice, so that it stands once on both or on none.
      omega

/-- A content and the same content once more below it. -/
def doubled (content : String) : String := content ++ "\n" ++ content

theorem solidRows_doubled (content : String) : solidRows (doubled content) = solidRows content ++ solidRows content := by
  have lines : feedLines (doubled content) = feedLines content ++ feedLines content := by
    rw [doubled, feedLines, stringPieces, String.toList_append, String.toList_append, List.append_assoc]
    exact (congrArg (List.map String.ofList) (pieces_append_sep '\n' _ _)).trans List.map_append
  rw [solidRows, lines, List.map_append, List.filter_append]
  rfl

theorem notesSameLines_doubled (content : String) (limit : Int) : NotesSameLines content (doubled content) limit := by
  rw [notesSameLines_iff]
  intro line
  rw [solidRows_doubled, List.mem_append, or_self]

/-- The note stands exactly where the contents have the same lines without their repetitions, so that it is right
where repeated lines stand equally often on both sides. No content is safe from it but one without lines: it
stands between a content and the same twice. -/
theorem notesSameLines_but_repeats (left right : String) (limit : Int) :
    (NotesSameLines left right limit ↔ (solidRows left).dedup.Perm (solidRows right).dedup) ∧
    ((solidRows left).Perm (solidRows right) ↔ NotesSameLines left right limit ∧ SameRepeats left right) ∧
    ((∀ other, NotesSameLines left other limit → (solidRows left).Perm (solidRows other)) ↔ solidRows left = []) := by
  refine ⟨?_, perm_solidRows_iff, ?_, ?_⟩
  · rw [notesSameLines_iff, List.perm_ext_iff_of_nodup (List.nodup_dedup _) (List.nodup_dedup _)]
    simp only [List.mem_dedup]
  · intro right
    have length := (right _ (notesSameLines_doubled left limit)).length_eq
    rw [solidRows_doubled, List.length_append] at length
    exact List.eq_nil_of_length_eq_zero (by omega)
  · intro none other noted
    have absent : solidRows other = [] := by
      refine List.eq_nil_iff_forall_not_mem.mpr fun line member => ?_
      have there := (notesSameLines_iff.mp noted line).mpr member
      rw [none] at there
      cases there
    rw [none, absent]

/-- A step that is done twice, and then once only: the note says that no line differs. -/
theorem notesSameLines_droppedStep :
    NotesSameLines "step\nstep" "step" 50 ∧ ¬ (solidRows "step\nstep").Perm (solidRows "step") := by
  constructor
  · rw [NotesSameLines]
    decide +kernel
  · intro same
    exact absurd same.length_eq (by decide)

end ExportDiff.Change
