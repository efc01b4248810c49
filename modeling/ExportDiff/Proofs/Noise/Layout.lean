/- The layout of an XML content is noise: which blanks stand in a gap, and how many. -/
import ExportDiff.Noise.Content
import ExportDiff.Proofs.Text.Gaps

namespace ExportDiff.Noise
open Text

/-- No rule looks for blanks, or tells one from another in the values that it takes. -/
theorem rules_even : ∀ r ∈ xmlRules ++ idRules, r.pattern.isEven = true := by decide

section
variable {r : Rule} {rules : List Rule} {s t : List Char}

theorem Rule.apply_gaps (even : r.pattern.isEven = true) (h : SameButGaps s t) :
    SameButGaps (r.apply s) (r.apply t) := by
  rw [sameButGaps_iff] at h ⊢
  calc collapseBlanks (r.apply s)
      = collapseBlanks (r.apply (collapseBlanks s)) := Pattern.collapse_replaceAll even _ s
    _ = collapseBlanks (r.apply (collapseBlanks t)) := by rw [h]
    _ = collapseBlanks (r.apply t) := (Pattern.collapse_replaceAll even _ t).symm

theorem applyRules_gaps (even : ∀ r ∈ rules, r.pattern.isEven = true) (h : SameButGaps s t) :
    SameButGaps (applyRules rules s) (applyRules rules t) :=
  List.foldl_rel h fun r member _ _ same => r.apply_gaps (even r member) same

end

theorem bareXml_eq_of_gaps {s t : String} (h : SameButGaps s.toList t.toList) : bareXml s = bareXml t := by
  have stamps := applyRules_gaps (fun r member => rules_even r (List.mem_append_left idRules member)) h
  have identifiers := applyRules_gaps (fun r member => rules_even r (List.mem_append_right xmlRules member)) stamps
  rw [bareXml, bareXml, sameButGaps_iff.mp identifiers]

/-- An XML content is the same without noise once each of its gaps is made a single space, and so are any
two contents that differ only in which blanks stand in their gaps, and how many. -/
theorem bareXml_layout :
    (∀ s : String, SingleSpaced s.toList (collapseBlanks s.toList) ∧
      bareXml (String.ofList (collapseBlanks s.toList)) = bareXml s) ∧
    ∀ s t : String, SameButGaps s.toList t.toList → bareXml s = bareXml t := by
  refine ⟨fun s => ?_, fun s t h => bareXml_eq_of_gaps h⟩
  have spaced := collapse_singleSpaced s.toList
  refine ⟨spaced, bareXml_eq_of_gaps ?_⟩
  rw [String.toList_ofList, sameButGaps_iff]
  exact (sameButGaps_iff.mp spaced.gaps).symm

/-- An element written on several lines: with blanks in two values that are dropped, a gap on either side of
one of them, and an identifier behind the other. -/
def brokenElement : String := "<flow\n\txml:id=\"a \u00A0 b\"\r\n  timestamp=\"08:00 \t1\"\n>\n  res_0f</flow>"

theorem bareXml_layout_brokenElement :
    SameButGaps brokenElement.toList "<flow xml:id=\"a b\" timestamp=\"08:00 1\" > res_0f</flow>".toList ∧
      bareXml brokenElement = bareXml "<flow xml:id=\"a b\" timestamp=\"08:00 1\" > res_0f</flow>" :=
  ⟨by decide, bareXml_layout.2 _ _ (by decide)⟩

end ExportDiff.Noise
