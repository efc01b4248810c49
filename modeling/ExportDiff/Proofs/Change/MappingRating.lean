/- The noise test and the rating of mappings read XML contents alike. -/
import ExportDiff.Proofs.Change.FileDiff
import ExportDiff.Proofs.Noise.PathKey

namespace ExportDiff.Change
open Artifact Noise Snapshot Text

/-- The rating of a mapping whose contents are not known to differ as XML. -/
def minorMapping : Rating := ⟨.medium, "Data mapping updated with minor changes."⟩

theorem rateModification_mapping {path : String} (notFlow : isFlow (lowercase path) = false)
    (mapping : isMapping (lowercase path) = true) (old new : Option String) :
    rateModification path old new = if differAsXml old new then
      ⟨.high, "Data transformation logic changed. The rules for converting data were modified."⟩
    else minorMapping := by
  rw [rateModification, if_neg (Bool.eq_false_iff.mp notFlow), if_pos mapping]
  rfl

/-- Nothing else is rated in these words. -/
theorem rateModification_eq_minor_iff {path : String} {old new : Option String} :
    rateModification path old new = minorMapping ↔
      isFlow (lowercase path) = false ∧ isMapping (lowercase path) = true ∧ differAsXml old new = false := by
  constructor
  · intro h
    have reason := congrArg Rating.reason h
    cases flow : isFlow (lowercase path) with
    | true =>
        rw [rateModification, if_pos flow] at reason
        exact absurd reason (by decide)
    | false =>
        cases mapping : isMapping (lowercase path) with
        | true =>
            rw [rateModification_mapping flow mapping] at reason
            refine ⟨rfl, rfl, Bool.eq_false_iff.mpr fun differ => ?_⟩
            rw [if_pos differ] at reason
            exact absurd reason (by decide)
        | false =>
            rw [rateModification, if_neg (Bool.eq_false_iff.mp flow), if_neg (Bool.eq_false_iff.mp mapping)]
              at reason
            repeat' split at reason
            all_goals exact absurd reason (by decide)
  · rintro ⟨notFlow, mapping, same⟩
    rw [rateModification_mapping notFlow mapping, if_neg (Bool.eq_false_iff.mp same)]

theorem ratePresence_ne_minor (path : String) (change : ChangeKind) : ratePresence path change ≠ minorMapping := by
  intro h
  have reason := congrArg Rating.reason h
  rw [ratePresence] at reason
  cases change <;>
  · repeat' split at reason
    all_goals exact absurd reason (by decide)

/-- The content is known, and its path says that it is XML. -/
def KnownXml (f : FileRecord) : Prop := f.content ≠ none ∧ isXml f.path = true

/-- Contents that are not the same by their paths differ as XML where the paths say that they are XML. -/
theorem differAsXml_of_knownXml {l r : FileRecord} (hl : KnownXml l) (hr : KnownXml r)
    (differ : ¬ SameContents l r) : differAsXml l.content r.content = true := by
  obtain ⟨a, left⟩ := Option.ne_none_iff_exists'.mp hl.1
  obtain ⟨b, right⟩ := Option.ne_none_iff_exists'.mp hr.1
  rw [left, right, differAsXml, decide_eq_true_iff]
  intro same
  refine differ ⟨a, b, left, right, ?_⟩
  rw [bareContent, if_pos hl.2, bareContent, if_pos hr.2, same]

/-- A file on one side only is rated by its path, and one on both sides by its contents too. -/
theorem classify_eq_some {key : String} {files : Sides FileRecord} {change : ChangeKind} {rating : Rating}
    (h : classify key files = some (change, rating)) :
    (change ≠ .modified ∧ rating = ratePresence key change) ∨
      ∃ l r, files = .both l r ∧ ¬ SameContents l r ∧ change = .modified ∧
        rating = rateModification key l.content r.content := by
  cases files with
  | left l =>
      cases h
      exact .inl ⟨ChangeKind.noConfusion, rfl⟩
  | right r =>
      cases h
      exact .inl ⟨ChangeKind.noConfusion, rfl⟩
  | both l r =>
      rw [classify] at h
      split at h
      · cases h
      · rename_i differ
        rw [Bool.or_eq_true, not_or, sameContent_iff] at differ
        cases h
        exact .inr ⟨l, r, rfl, differ.2, rfl, rfl⟩

section
variable {lineLimit : Int} {left right : List FileRecord} {i : Item}

theorem rating_of_mem (member : i ∈ (compareFiles lineLimit left right).items) :
    (i.change ≠ .modified ∧ i.rating = ratePresence i.key i.change) ∨
      ∃ l r, lastFile? left i.key = some l ∧ lastFile? right i.key = some r ∧ ¬ SameContents l r ∧
        i.change = .modified ∧ i.rating = rateModification i.key l.content r.content := by
  obtain ⟨files, rating, there, kind, same⟩ := itemFor_eq_some (mem_items_iff.mp member)
  rw [PathIndex.get?_ofFiles, PathIndex.get?_ofFiles] at there
  have own : i.rating = rating := congrArg Item.rating same
  obtain ⟨hl, hr⟩ := Sides.ofOptions?_eq_some there
  rcases classify_eq_some kind with presence | ⟨l, r, rfl, rest⟩
  · exact .inl (own ▸ presence)
  · exact .inr ⟨l, r, hl.symm, hr.symm, own ▸ rest⟩

theorem lowercase_key (member : i ∈ (compareFiles lineLimit left right).items) : lowercase i.key = i.key := by
  obtain ⟨f, _, key⟩ := (reported_iff.mp ⟨i, member, rfl, rfl, rfl, rfl⟩).known
  rw [← key]
  exact (pathKey_normal f.path).2.1.small

/-- A modified mapping is rated high where both contents are known XML, so that one with minor changes has
a content that is not known, or a path that is not one of XML. -/
theorem compareFiles_mapping_rating (member : i ∈ (compareFiles lineLimit left right).items) :
    (i.change = .modified → isMapping i.key = true → isFlow i.key = false →
      ∀ l r, lastFile? left i.key = some l → lastFile? right i.key = some r → KnownXml l → KnownXml r →
        i.rating.severity = .high) ∧
    (i.rating = minorMapping →
      ∃ l r, lastFile? left i.key = some l ∧ lastFile? right i.key = some r ∧ ¬ (KnownXml l ∧ KnownXml r)) := by
  rcases rating_of_mem member with ⟨oneSide, rated⟩ | ⟨l, r, hl, hr, differ, change, rated⟩
  · refine ⟨fun change => absurd change oneSide, fun minor => ?_⟩
    exact absurd (rated.symm.trans minor) (ratePresence_ne_minor i.key i.change)
  · constructor
    · intro _ mapping notFlow l' r' hl' hr' xmlLeft xmlRight
      cases hl.symm.trans hl'
      cases hr.symm.trans hr'
      rw [← lowercase_key member] at mapping notFlow
      rw [rated, rateModification_mapping notFlow mapping, if_pos (differAsXml_of_knownXml xmlLeft xmlRight differ)]
    · intro minor
      have same := (rateModification_eq_minor_iff.mp (rated.symm.trans minor)).2.2
      refine ⟨l, r, hl, hr, fun ⟨xmlLeft, xmlRight⟩ => ?_⟩
      exact absurd (same.symm.trans (differAsXml_of_knownXml xmlLeft xmlRight differ)) Bool.false_ne_true

end

/-- A mapping that reads one element of an order. -/
def orderMapping (path hash element : String) : FileRecord :=
  ⟨path, hash, 9, some ("<map from=\"" ++ element ++ "\"/>")⟩

/-- It reads another element in the next version, where its path is in other case. -/
theorem compareFiles_mapping_rating_order :
    ∃ i ∈ (compareFiles 50 [orderMapping "maps/Order.xsl" "1" "id"] [orderMapping "maps/order.XSL" "2" "key"]).items,
      i.key = "maps/order.xsl" ∧ i.change = .modified ∧ i.rating.severity = .high := by
  have old : lastFile? [orderMapping "maps/Order.xsl" "1" "id"] "maps/order.xsl" =
      some (orderMapping "maps/Order.xsl" "1" "id") := by decide +kernel
  have new : lastFile? [orderMapping "maps/order.XSL" "2" "key"] "maps/order.xsl" =
      some (orderMapping "maps/order.XSL" "2" "key") := by decide +kernel
  have differ : ¬ SameContents (orderMapping "maps/Order.xsl" "1" "id") (orderMapping "maps/order.XSL" "2" "key") := by
    rw [← sameContent_iff]
    decide
  have real := RealChange.modified (by decide) differ
  rw [← old, ← new] at real
  obtain ⟨i, member, key, change, _⟩ := reported_iff.mpr real
  refine ⟨i, member, key, change, ?_⟩
  have rated := (@compareFiles_mapping_rating 50 _ _ _ member).1 change
  rw [key] at rated
  exact rated (by decide) (by decide) _ _ old new ⟨by decide, by decide⟩
    ⟨by decide, by decide⟩

end ExportDiff.Change
