/- When the headline and the sentence of a change speak of a mapping where its kind and its rating do. -/
import ExportDiff.Proofs.Change.MappingRating

namespace ExportDiff.Change
open Artifact Text

/-- The headline for a mapping of this name. -/
def mappingHeadline (name : String) (change : ChangeKind) : String :=
  "Data mapping \"" ++ name ++ "\" was " ++ change.verb

/-- The sentence for a mapping when no object is named. -/
def mappingSentence : ChangeKind → String
  | .added => "New data transformation mapping was added"
  | .removed => "Data transformation mapping was removed"
  | .modified => "Data transformation logic was updated"

/-- The name that a headline gives the file. -/
def shownName (path : String) (displayPath : Option String) : String :=
  friendlyName ((displayPath.filter (· ≠ "")).getD path)

/-- Changes of the file are rated by the rule for mappings. -/
structure RatedAsMapping (path : String) : Prop where
  added : (ratePresence path .added).severity = .medium
  removed : (ratePresence path .removed).severity = .high
  modified : ∀ old new, (rateModification path old new).severity = if differAsXml old new then .high else .medium

section
variable {path : String}

theorem kindBy_eq_mapping_iff {mapping : String → Bool} :
    kindBy mapping path = .mapping ↔ isFlow (lowercase path) = false ∧ mapping (lowercase path) = true := by
  constructor
  · intro kind
    by_contra other
    rw [not_and_or, Bool.not_eq_false, Bool.not_eq_true] at other
    rw [kindBy] at kind
    rcases other with flow | misfit
    · rw [if_pos flow] at kind
      cases kind
    · rw [if_neg (Bool.eq_false_iff.mp misfit)] at kind
      repeat' split at kind
      all_goals cases kind
  · rintro ⟨notFlow, fits⟩
    rw [kindBy, if_neg (Bool.eq_false_iff.mp notFlow), if_pos fits]

theorem ratedAsMapping (notFlow : isFlow (lowercase path) = false) (mapping : isMapping (lowercase path) = true) :
    RatedAsMapping path where
  added := by simp [ratePresence, notFlow, mapping]
  removed := by simp [ratePresence, notFlow, mapping]
  modified := fun old new => by
    rw [rateModification_mapping notFlow mapping]
    split <;> rfl

/-- No other kind has a headline that begins like that of a mapping. -/
theorem headline_eq_mapping_iff {change : ChangeKind} {displayPath : Option String} :
    headline path change displayPath = mappingHeadline (shownName path displayPath) change ↔
      kindBy hasMappingEnd path = .mapping := by
  unfold headline mappingHeadline shownName
  generalize friendlyName _ = name
  constructor
  · intro same
    have start := congrArg (fun s => s.toList.take 6) same
    cases kind : kindBy hasMappingEnd path <;> simp [kind] at start ⊢
  · intro kind
    simp only [kind]

theorem describe_unknown (change : ChangeKind) :
    describe change path none none = plainSentence change (lowercase path) := by
  simp [describe, changesBetween, objectName?]

theorem plainSentence_eq_mapping_iff {change : ChangeKind} {p : String} :
    plainSentence change p = mappingSentence change ↔ readsAsMapping p = true := by
  constructor
  · intro same
    by_contra other
    cases change <;>
    · simp only [plainSentence, if_neg other, mappingSentence] at same
      repeat' split at same
      all_goals exact absurd same (by decide)
  · intro reads
    cases change <;> simp [plainSentence, mappingSentence, reads]

/-- The two tests for mappings meet in the first extension, and in the second one where the path mentions one too. -/
theorem mapping_ends_iff {p : String} : (hasMappingEnd p = true ∧ readsAsMapping p = true) ↔
    endsIn p [".xsl"] = true ∨ endsIn p [".xslt"] = true ∧ mentions p "mapping" = true := by
  have ends : hasMappingEnd p = (endsIn p [".xsl"] || endsIn p [".xslt"]) := by
    rw [hasMappingEnd, endsIn, endsIn, endsIn]
    simp only [List.any_cons, List.any_nil, Bool.or_false]
  rw [ends, readsAsMapping]
  cases endsIn p [".xsl"] with
  | true => simp
  | false => simp

/-- For a path of a mapping that is none of a flow, the kind and the rating are those of a mapping. The headline
speaks of one only by the extension, and the sentence only where the path mentions one or ends as the first of the
two extensions. -/
theorem mapping_labels_iff (notFlow : isFlow (lowercase path) = false) (mapping : isMapping (lowercase path) = true)
    (change : ChangeKind) (displayPath : Option String) :
    kindLabel path = "Data Mapping" ∧ RatedAsMapping path ∧
    (headline path change displayPath = mappingHeadline (shownName path displayPath) change ↔
      hasMappingEnd (lowercase path) = true) ∧
    (describe change path none none = mappingSentence change ↔ readsAsMapping (lowercase path) = true) ∧
    ((headline path change displayPath = mappingHeadline (shownName path displayPath) change ∧
        describe change path none none = mappingSentence change) ↔
      endsIn (lowercase path) [".xsl"] = true ∨
        endsIn (lowercase path) [".xslt"] = true ∧ mentions (lowercase path) "mapping" = true) := by
  have kind : kindLabel path = "Data Mapping" :=
    congrArg Kind.label (kindBy_eq_mapping_iff.mpr ⟨notFlow, mapping⟩)
  have head : headline path change displayPath = mappingHeadline (shownName path displayPath) change ↔
      hasMappingEnd (lowercase path) = true := by
    rw [headline_eq_mapping_iff, kindBy_eq_mapping_iff, and_iff_right notFlow]
  have sentence : describe change path none none = mappingSentence change ↔
      readsAsMapping (lowercase path) = true := by
    rw [describe_unknown, plainSentence_eq_mapping_iff]
  refine ⟨kind, ratedAsMapping notFlow mapping, head, sentence, ?_⟩
  rw [head, sentence]
  exact mapping_ends_iff

end

/-- An added order mapping is called one by all its labels. -/
theorem mapping_labels_orderXsl :
    headline "maps/order.xsl" .added none = "Data mapping \"order\" was added" ∧
    describe .added "maps/order.xsl" none none = "New data transformation mapping was added" := by
  have labels := @mapping_labels_iff "maps/order.xsl" (by decide) (by decide) .added none
  have both := labels.2.2.2.2.mpr (.inl (by decide))
  rw [show shownName "maps/order.xsl" none = "order" by decide] at both
  exact both

/-- Two keys of mappings. The first one has the headline of a mapping but the sentence of any other file, and the
second one has them the other way round. -/
theorem mapping_labels_apart :
    (Noise.pathKey "maps/order.xslt" = "maps/order.xslt" ∧
      isFlow (lowercase "maps/order.xslt") = false ∧ isMapping (lowercase "maps/order.xslt") = true ∧
      headline "maps/order.xslt" .added none = "Data mapping \"order\" was added" ∧
      describe .added "maps/order.xslt" none none = "New configuration file was added") ∧
    Noise.pathKey "maps/mapping.xml" = "maps/mapping.xml" ∧
      isFlow (lowercase "maps/mapping.xml") = false ∧ isMapping (lowercase "maps/mapping.xml") = true ∧
      headline "maps/mapping.xml" .added none = "Configuration was added" ∧
      describe .added "maps/mapping.xml" none none = "New data transformation mapping was added" := by
  decide +kernel

end ExportDiff.Change
