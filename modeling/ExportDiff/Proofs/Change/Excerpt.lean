/- An excerpt tells exactly the lines of one side that the other does not have, and its note stands where there are
none. -/
import ExportDiff.Change.Excerpt
import ExportDiff.Proofs.Json.Canonical
import ExportDiff.Proofs.Text.Pieces
import Mathlib.Data.Finset.Basic
import Mathlib.Data.Finset.Dedup

namespace ExportDiff.Change
open Text

/-- The lines between line feeds, whatever other breaks they hold. -/
def feedLines (content : String) : List String := stringPieces '\n' content

/-- The line is not blank, and none of the others is the same up to the white space around it. -/
def Missing (others : List String) (line : String) : Prop :=
  trimmed line ≠ "" ∧ ∀ other ∈ others, trimmed other ≠ trimmed line

instance (others : List String) : DecidablePred (Missing others) := fun line =>
  inferInstanceAs (Decidable (trimmed line ≠ "" ∧ ∀ other ∈ others, trimmed other ≠ trimmed line))

/-- The lines of a content that are missing from another one, as they stand and in their order. -/
def missingLines (content other : String) : List String := (feedLines content).filter (Missing (feedLines other))

/-- The lines that are not blank, as a set and without the white space around them. -/
def solidLines (content : String) : Finset String := ((feedLines content).map trimmed).toFinset.erase ""

/-- The two lists that an excerpt may have. -/
inductive Section where
  | removed
  | added
  deriving DecidableEq

namespace Section

def header : Section → Nat → String
  | removed, n => "--- REMOVED (" ++ toString n ++ " lines) ---"
  | added, n => "+++ ADDED (" ++ toString n ++ " lines) +++"

def marker : Section → Char
  | removed => '-'
  | added => '+'

def noun : Section → String
  | removed => "removed"
  | added => "added"

/-- A line as the section lists it. -/
def row (s : Section) (line : String) : String := String.singleton s.marker ++ " " ++ line

/-- The line that a row of the section lists. -/
def listed? (s : Section) (row : String) : Option String :=
  if [s.marker, ' '] <+: row.toList then some (String.ofList (row.toList.drop 2)) else none

/-- The rows for some lines; without any there is no section. -/
def rows (s : Section) (lines : List String) (limit : Int) : List String :=
  if lines = [] then [] else sideLines lines (s.header lines.length) (String.singleton s.marker) s.noun limit

end Section

/-- What the rows of an excerpt say about the lines of a content that are missing from another one. -/
structure Reports (s : Section) (content other : String) (limit : Nat) (rows : List String) : Prop where
  present : (∃ n, s.header n ∈ rows) ↔ ∃ line ∈ feedLines content, Missing (feedLines other) line
  counted : ∀ n, s.header n ∈ rows → n = (missingLines content other).length
  behind : missingLines content other ≠ [] →
    s.header (missingLines content other).length :: ((missingLines content other).take limit).map s.row <:+: rows
  listed : rows.filterMap s.listed? = (missingLines content other).take limit

theorem linesMissing_eq (lines others : List String) : linesMissing lines others = lines.filter (Missing others) := by
  refine List.filter_congr fun line _ => ?_
  rw [Bool.eq_iff_iff, decide_eq_true_iff]
  simp [Missing]

/-- What every excerpt begins with. -/
def excerptHead (left right : String) : List String :=
  ["=== FILE MODIFIED ===", sizeLine "Old" (feedLines left) left, sizeLine "New" (feedLines right) right,
    sizeChange left right, ""]

/-- A blank row behind the removed lines. -/
def excerptGap (left right : String) : List String := if missingLines left right = [] then [] else [""]

def excerptNote (left right : String) : List String :=
  if missingLines left right = [] ∧ missingLines right left = [] then [sameLinesNote] else []

theorem excerptLines_eq (left right : String) (limit : Int) : excerptLines left right limit =
    excerptHead left right ++ Section.removed.rows (missingLines left right) limit ++ excerptGap left right ++
      Section.added.rows (missingLines right left) limit ++ excerptNote left right := by
  have removed : linesMissing (stringPieces '\n' left) (stringPieces '\n' right) = missingLines left right :=
    linesMissing_eq _ _
  have added : linesMissing (stringPieces '\n' right) (stringPieces '\n' left) = missingLines right left :=
    linesMissing_eq _ _
  rw [excerptLines, removed, added, excerptGap, excerptNote, Section.rows, Section.rows]
  by_cases noneRemoved : missingLines left right = [] <;> by_cases noneAdded : missingLines right left = [] <;>
    simp [noneRemoved, noneAdded, Section.header, Section.marker, Section.noun, feedLines, excerptHead]

/-! Rows that no section has. -/

/-- The row begins with no marker. -/
def Quiet (row : String) : Prop := ∀ s : Section, row.toList.head? ≠ some s.marker

theorem quiet_of_head {row : String} {c : Char} (first : row.toList.head? = some c) (minus : c ≠ '-') (plus : c ≠ '+') :
    Quiet row := by
  intro s
  rw [first, ne_eq, Option.some.injEq]
  cases s with
  | removed => exact minus
  | added => exact plus

theorem quiet_empty : Quiet "" := fun _ => nofun

namespace Quiet
variable {row : String}

theorem listed? (h : Quiet row) (s : Section) : s.listed? row = none := by
  refine if_neg fun begins => h s ?_
  obtain ⟨line, same⟩ := begins
  rw [← same]
  rfl

theorem ne_header (h : Quiet row) (s : Section) (n : Nat) : s.header n ≠ row := by
  rintro rfl
  apply h s
  cases s <;> simp [Section.header, Section.marker]

end Quiet

theorem quiet_head (left right : String) : ∀ row ∈ excerptHead left right, Quiet row := by
  simp only [excerptHead, List.forall_mem_cons]
  refine ⟨?_, ?_, ?_, ?_, quiet_empty, List.forall_mem_nil _⟩
  · exact quiet_of_head (c := '=') rfl (by decide) (by decide)
  · exact quiet_of_head (c := 'O') (by simp [sizeLine]) (by decide) (by decide)
  · exact quiet_of_head (c := 'N') (by simp [sizeLine]) (by decide) (by decide)
  · exact quiet_of_head (c := 'C') (by simp [sizeChange]) (by decide) (by decide)

theorem quiet_gap (left right : String) : ∀ row ∈ excerptGap left right, Quiet row := by
  intro row member
  rw [excerptGap] at member
  split at member
  · cases member
  · rw [List.mem_singleton.mp member]
    exact quiet_empty

theorem quiet_sameLinesNote : Quiet sameLinesNote := quiet_of_head (c := '(') rfl (by decide) (by decide)

theorem quiet_note (left right : String) : ∀ row ∈ excerptNote left right, Quiet row := by
  intro row member
  rw [excerptNote] at member
  split at member
  · rw [List.mem_singleton.mp member]
    exact quiet_sameLinesNote
  · cases member

/-! The rows of a section. -/

namespace Section
variable (s t : Section)

theorem marker_injective {s t : Section} (same : s.marker = t.marker) : s = t := by
  cases s <;> cases t <;> first | rfl | cases same

theorem marker_ne_blank : s.marker ≠ ' ' := by
  cases s <;> decide

theorem toList_row (line : String) : (s.row line).toList = s.marker :: ' ' :: line.toList := by
  simp [row]

theorem header_begins (n : Nat) : ∃ rest, (s.header n).toList = s.marker :: s.marker :: rest := by
  cases s <;> simp [header, marker]

theorem header_ne_row (n : Nat) (line : String) : s.header n ≠ t.row line := by
  intro same
  obtain ⟨rest, begins⟩ := s.header_begins n
  rw [same, toList_row] at begins
  injection begins with _ later
  injection later with blank _
  exact s.marker_ne_blank blank.symm

theorem header_inj {s t : Section} {n k : Nat} : s.header n = t.header k ↔ s = t ∧ n = k := by
  constructor
  · intro same
    obtain ⟨rest, begins⟩ := s.header_begins n
    obtain ⟨rest', begins'⟩ := t.header_begins k
    rw [same, begins'] at begins
    obtain rfl : t = s := marker_injective (List.cons.inj begins).1
    have numerals : n.repr = k.repr := by cases t <;> simpa [header] using same
    have digits : Nat.toDigits 10 n = Nat.toDigits 10 k := by
      rw [← Nat.toList_repr, numerals, Nat.toList_repr]
    exact ⟨rfl, Json.toDigits_injective digits⟩
  · rintro ⟨rfl, rfl⟩
    rfl

theorem listed?_row (line : String) : s.listed? (t.row line) = if s = t then some line else none := by
  by_cases own : s = t
  · simp [listed?, toList_row, own]
  · have other : s.marker ≠ t.marker := fun same => own (marker_injective same)
    simp [listed?, toList_row, own, other]

theorem listed?_header (n : Nat) : s.listed? (t.header n) = none := by
  refine if_neg fun begins => ?_
  obtain ⟨rest, header⟩ := t.header_begins n
  rw [header, List.cons_prefix_cons, List.cons_prefix_cons] at begins
  exact t.marker_ne_blank begins.2.1.symm

/-- What is told of the lines beyond a limit. -/
def overflow (lines : List String) (limit : Int) : List String :=
  if limit < lines.length then
    ["... and " ++ toString ((lines.length : Int) - limit) ++ " more " ++ s.noun ++ " lines"]
  else []

theorem rows_eq {lines : List String} (some : lines ≠ []) (limit : Int) :
    s.rows lines limit = s.header lines.length :: (shown limit lines).map s.row ++ s.overflow lines limit := by
  rw [rows, if_neg some]
  rfl

theorem quiet_overflow (lines : List String) (limit : Int) : ∀ row ∈ s.overflow lines limit, Quiet row := by
  intro row member
  rw [overflow] at member
  split at member
  · rw [List.mem_singleton.mp member]
    exact quiet_of_head (c := '.') (by simp) (by decide) (by decide)
  · cases member

theorem filterMap_quiet {rows : List String} (quiet : ∀ row ∈ rows, Quiet row) : rows.filterMap s.listed? = [] :=
  List.filterMap_eq_nil_iff.mpr fun row member => (quiet row member).listed? s

theorem filterMap_rows (lines : List String) (limit : Int) :
    (t.rows lines limit).filterMap s.listed? = if s = t then shown limit lines else [] := by
  by_cases some : lines = []
  · have empty : shown limit ([] : List String) = [] := by simp [shown]
    rw [rows, if_pos some, some, empty, List.filterMap_nil, ite_self]
  · have listed : ((shown limit lines).map t.row).filterMap s.listed? = if s = t then shown limit lines else [] := by
      rw [List.filterMap_map]
      by_cases own : s = t <;> simp [listed?_row, own]
    rw [rows_eq t some, List.cons_append, List.filterMap_cons_none (listed?_header s t _), List.filterMap_append,
      listed, filterMap_quiet s (t.quiet_overflow lines limit), List.append_nil]

theorem header_mem_rows {s t : Section} {lines : List String} {limit : Int} {n : Nat} :
    s.header n ∈ t.rows lines limit ↔ s = t ∧ lines ≠ [] ∧ n = lines.length := by
  by_cases some : lines = []
  · simp [rows, some]
  · have notListed : s.header n ∉ (shown limit lines).map t.row := by
      intro member
      obtain ⟨line, _, same⟩ := List.mem_map.mp member
      exact header_ne_row s t n line same.symm
    have notOver : s.header n ∉ t.overflow lines limit := fun member =>
      (t.quiet_overflow lines limit _ member).ne_header s n rfl
    rw [rows_eq t some, List.mem_append, List.mem_cons, or_iff_left notListed, or_iff_left notOver, header_inj]
    simp [some]

/-- The rows say nothing of the section. -/
structure Absent (rows : List String) : Prop where
  listed : rows.filterMap s.listed? = []
  header : ∀ n, s.header n ∉ rows

theorem absent_of_quiet {rows : List String} (quiet : ∀ row ∈ rows, Quiet row) : s.Absent rows where
  listed := filterMap_quiet s quiet
  header := fun n member => (quiet _ member).ne_header s n rfl

theorem absent_rows {s t : Section} (other : s ≠ t) (lines : List String) (limit : Int) :
    s.Absent (t.rows lines limit) where
  listed := by rw [filterMap_rows, if_neg other]
  header := fun _ member => other (header_mem_rows.mp member).1

theorem Absent.append {s : Section} {rows rows' : List String} (h : s.Absent rows) (h' : s.Absent rows') :
    s.Absent (rows ++ rows') where
  listed := by rw [List.filterMap_append, h.listed, h'.listed, List.append_nil]
  header := fun n member => (List.mem_append.mp member).elim (h.header n) (h'.header n)

theorem shown_natCast {α : Type} (limit : Nat) (lines : List α) : shown limit lines = lines.take limit := by
  simp [shown]

/-- The rows of a section among others that say nothing of it. -/
theorem reports_of_absent {s : Section} {before after : List String} (absent : s.Absent before)
    (absent' : s.Absent after) (content other : String) (limit : Nat) :
    Reports s content other limit (before ++ s.rows (missingLines content other) limit ++ after) := by
  have header (n : Nat) : s.header n ∈ before ++ s.rows (missingLines content other) limit ++ after ↔
      missingLines content other ≠ [] ∧ n = (missingLines content other).length := by
    rw [List.mem_append, List.mem_append, or_iff_left (absent'.header n), or_iff_right (absent.header n),
      header_mem_rows, and_iff_right rfl]
  refine ⟨?_, fun n member => ((header n).mp member).2, ?_, ?_⟩
  · simp only [header, exists_and_left, exists_eq, and_true]
    rw [missingLines, ne_eq, List.filter_eq_nil_iff]
    simp
  · intro some
    rw [rows_eq s some, shown_natCast]
    exact ⟨before, s.overflow (missingLines content other) limit ++ after, by simp⟩
  · rw [List.filterMap_append, List.filterMap_append, absent.listed, absent'.listed, filterMap_rows, if_pos rfl,
      shown_natCast, List.nil_append, List.append_nil]

end Section

/-! The excerpt, row by row. -/

theorem newline_not_mem_int (n : Int) : '\n' ∉ (toString n).toList := fun member =>
  absurd (Json.isNumeral_of_mem member) (by decide)

theorem newline_not_mem_nat (n : Nat) : '\n' ∉ (toString n).toList := newline_not_mem_int (Int.ofNat n)

theorem newline_not_mem_feedLines (content : String) : ∀ line ∈ feedLines content, '\n' ∉ line.toList := by
  intro line member
  obtain ⟨piece, there, rfl⟩ := List.mem_map.mp member
  rw [String.toList_ofList]
  exact not_mem_of_mem_pieces there

theorem mem_of_mem_shown {α : Type} {limit : Int} {lines : List α} {line : α} (h : line ∈ shown limit lines) :
    line ∈ lines := by
  rw [shown] at h
  split at h <;> exact List.mem_of_mem_take h

theorem newline_not_mem_header (s : Section) (n : Nat) : '\n' ∉ (s.header n).toList := by
  have digits := newline_not_mem_nat n
  cases s <;> simpa [Section.header] using digits

theorem newline_not_mem_rows (s : Section) {lines : List String} (free : ∀ line ∈ lines, '\n' ∉ line.toList)
    (limit : Int) : ∀ row ∈ s.rows lines limit, '\n' ∉ row.toList := by
  intro row member
  by_cases some : lines = []
  · rw [Section.rows, if_pos some] at member
    cases member
  · rw [Section.rows_eq s some, List.mem_append, List.mem_cons, List.mem_map] at member
    rcases member with (rfl | ⟨line, there, rfl⟩) | beyond
    · exact newline_not_mem_header s lines.length
    · have own : s.marker ≠ '\n' := by cases s <;> decide
      rw [Section.toList_row]
      simpa [own.symm] using free line (mem_of_mem_shown there)
    · rw [Section.overflow] at beyond
      split at beyond
      · rw [List.mem_singleton.mp beyond]
        have noun : '\n' ∉ s.noun.toList := by cases s <;> decide
        have both := And.intro (newline_not_mem_int (lines.length - limit)) noun
        simpa using both
      · cases beyond

theorem newline_not_mem_head (left right : String) : ∀ row ∈ excerptHead left right, '\n' ∉ row.toList := by
  have size (label : String) (free : '\n' ∉ label.toList) (lines : List String) (content : String) :
      '\n' ∉ (sizeLine label lines content).toList := by
    have count := newline_not_mem_nat lines.length
    have bytes := newline_not_mem_nat content.length
    have both := And.intro count bytes
    simpa [sizeLine, free] using both
  have change : '\n' ∉ (sizeChange left right).toList := by
    have delta := newline_not_mem_int ((right.length : Int) - left.length)
    simp only [sizeChange]
    split <;> simpa using delta
  simp only [excerptHead, List.forall_mem_cons]
  exact ⟨by decide, size _ (by decide) _ _, size _ (by decide) _ _, change, by decide, List.forall_mem_nil _⟩

theorem feedLines_modifiedExcerpt (left right : String) (limit : Int) :
    feedLines (modifiedExcerpt left right limit) = excerptLines left right limit := by
  have missing (content other : String) : ∀ line ∈ missingLines content other, '\n' ∉ line.toList := fun line member =>
    newline_not_mem_feedLines content line (List.mem_filter.mp member).1
  have gap : ∀ row ∈ excerptGap left right, '\n' ∉ row.toList := by
    rw [excerptGap]
    split <;> simp
  have note : ∀ row ∈ excerptNote left right, '\n' ∉ row.toList := by
    rw [excerptNote]
    split <;> simp [sameLinesNote]
  refine stringPieces_join rfl ?_ ?_
  · simp only [excerptLines_eq, List.forall_mem_append]
    exact ⟨⟨⟨⟨newline_not_mem_head left right, newline_not_mem_rows _ (missing left right) limit⟩, gap⟩,
      newline_not_mem_rows _ (missing right left) limit⟩, note⟩
  · simp [excerptLines_eq, excerptHead]

theorem mem_solidLines {content line : String} :
    line ∈ solidLines content ↔ line ≠ "" ∧ ∃ l ∈ feedLines content, trimmed l = line := by
  simp [solidLines]

theorem not_missing_iff {others : List String} {line : String} :
    ¬ Missing others line ↔ (trimmed line ≠ "" → ∃ other ∈ others, trimmed other = trimmed line) := by
  simp [Missing]

/-- Nothing is missing where every line that is not blank is there. -/
theorem missingLines_eq_nil_iff (content other : String) :
    missingLines content other = [] ↔ solidLines content ⊆ solidLines other := by
  simp only [missingLines, List.filter_eq_nil_iff, decide_eq_true_eq, not_missing_iff]
  constructor
  · intro found line member
    obtain ⟨some, l, there, rfl⟩ := mem_solidLines.mp member
    exact mem_solidLines.mpr ⟨some, found l there some⟩
  · intro inside l there some
    exact (mem_solidLines.mp (inside (mem_solidLines.mpr ⟨some, l, there, rfl⟩))).2

theorem note_not_mem_rows (s : Section) (lines : List String) (limit : Int) : sameLinesNote ∉ s.rows lines limit := by
  intro member
  by_cases some : lines = []
  · rw [Section.rows, if_pos some] at member
    cases member
  · rw [Section.rows_eq s some, List.mem_append, List.mem_cons, List.mem_map] at member
    rcases member with (header | ⟨line, _, row⟩) | beyond
    · exact quiet_sameLinesNote.ne_header s _ header.symm
    · apply quiet_sameLinesNote s
      rw [← row, Section.toList_row]
      rfl
    · rw [Section.overflow] at beyond
      split at beyond
      · have first := congrArg (fun row => row.toList.head?) (List.mem_singleton.mp beyond)
        simp [sameLinesNote] at first
      · cases beyond

/-- The note is the last row where no line is missing on either side, and nowhere else. -/
theorem getLast?_excerptLines (left right : String) (limit : Int) :
    (excerptLines left right limit).getLast? = some sameLinesNote ↔
      missingLines left right = [] ∧ missingLines right left = [] := by
  rw [excerptLines_eq]
  constructor
  · intro last
    by_contra differ
    rw [excerptNote, if_neg differ, List.append_nil, List.getLast?_append] at last
    by_cases noneAdded : missingLines right left = []
    · have someRemoved : missingLines left right ≠ [] := fun none => differ ⟨none, noneAdded⟩
      simp [Section.rows, noneAdded, excerptGap, someRemoved, sameLinesNote] at last
    · rcases Option.or_eq_some_iff.mp last with added | ⟨none, _⟩
      · exact note_not_mem_rows .added _ limit (List.mem_of_getLast? added)
      · rw [List.getLast?_eq_none_iff, Section.rows_eq _ noneAdded] at none
        cases none
  · intro same
    rw [excerptNote, if_pos same, List.getLast?_append]
    rfl

theorem reports_removed (left right : String) (limit : Nat) :
    Reports .removed left right limit (feedLines (modifiedExcerpt left right limit)) := by
  have other : Section.removed ≠ .added := nofun
  have after := ((Section.removed.absent_of_quiet (quiet_gap left right)).append
    (Section.absent_rows other (missingLines right left) limit)).append
    (Section.removed.absent_of_quiet (quiet_note left right))
  have before := Section.removed.absent_of_quiet (quiet_head left right)
  have reports := Section.reports_of_absent before after left right limit
  rw [feedLines_modifiedExcerpt, excerptLines_eq]
  simpa only [List.append_assoc] using reports

theorem reports_added (left right : String) (limit : Nat) :
    Reports .added right left limit (feedLines (modifiedExcerpt left right limit)) := by
  have other : Section.added ≠ .removed := nofun
  have before := ((Section.added.absent_of_quiet (quiet_head left right)).append
    (Section.absent_rows other (missingLines left right) limit)).append
    (Section.added.absent_of_quiet (quiet_gap left right))
  rw [feedLines_modifiedExcerpt, excerptLines_eq]
  exact Section.reports_of_absent before (Section.added.absent_of_quiet (quiet_note left right)) right left limit

/-- An excerpt has a section for the lines of each content that are missing from the other one, if there are any.
Its header counts them all, and behind it the first of them stand as they do in the content. So what one excerpt
lists as removed is what the excerpt the other way round lists as added. The note ends those excerpts whose contents
have the same lines but for white space and blank lines. -/
theorem modifiedExcerpt_reports (left right : String) (limit : Nat) :
    Reports .removed left right limit (feedLines (modifiedExcerpt left right limit)) ∧
    Reports .added right left limit (feedLines (modifiedExcerpt left right limit)) ∧
    (feedLines (modifiedExcerpt left right limit)).filterMap Section.removed.listed? =
      (feedLines (modifiedExcerpt right left limit)).filterMap Section.added.listed? ∧
    ((feedLines (modifiedExcerpt left right limit)).getLast? = some sameLinesNote ↔
      solidLines left = solidLines right) := by
  have removed := reports_removed left right limit
  have added := reports_added right left limit
  refine ⟨removed, reports_added left right limit, removed.listed.trans added.listed.symm, ?_⟩
  rw [feedLines_modifiedExcerpt, getLast?_excerptLines, missingLines_eq_nil_iff, missingLines_eq_nil_iff]
  exact Finset.Subset.antisymm_iff.symm

end ExportDiff.Change
