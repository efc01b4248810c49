/- What an excerpt lists and what it only counts add up to its headers, unless the limit is below zero. -/
import ExportDiff.Proofs.Change.Excerpt
import Mathlib.Algebra.Ring.Int.Defs
import Std.Data.String.ToInt

namespace ExportDiff.Change
open Text

namespace Section

def overflowStart : List Char := "... and ".toList

def overflowEnd (s : Section) : List Char := (" more " ++ s.noun ++ " lines").toList

/-- The number in a row that tells of lines beyond the limit. -/
def unlisted? (s : Section) (row : String) : Option Int :=
  let behind := row.toList.drop overflowStart.length
  if overflowStart <+: row.toList ∧ behind.dropWhile (· ≠ ' ') = s.overflowEnd then
    (String.ofList (behind.takeWhile (· ≠ ' '))).toInt?
  else none

/-- How many lines the rows list. -/
def listedCount (s : Section) (rows : List String) : Int := (rows.filterMap s.listed?).length

/-- How many lines the rows tell of without listing them, which is none where no row tells of any. -/
def unlistedCount (s : Section) (rows : List String) : Int := (rows.filterMap s.unlisted?).sum

/-- The row that tells of `n` lines beyond the limit. -/
def overflowRow (s : Section) (n : Int) : String := "... and " ++ toString n ++ " more " ++ s.noun ++ " lines"

variable (s t : Section)

theorem overflow_eq (lines : List String) (limit : Int) :
    s.overflow lines limit = if limit < lines.length then [s.overflowRow (lines.length - limit)] else [] := rfl

theorem toList_overflowRow (n : Int) :
    (s.overflowRow n).toList = overflowStart ++ ((toString n).toList ++ s.overflowEnd) := by
  unfold overflowRow overflowStart overflowEnd
  simp only [String.toList_append, List.append_assoc]

theorem overflowEnd_injective {s t : Section} (same : s.overflowEnd = t.overflowEnd) : s = t := by
  cases s <;> cases t <;> first | rfl | exact absurd same (by decide)

theorem unlisted?_overflowRow (n : Int) : s.unlisted? (t.overflowRow n) = if s = t then some n else none := by
  have digits : ∀ c ∈ (toString n).toList, decide (c ≠ ' ') = true := by
    intro c member
    rw [decide_eq_true_iff]
    rintro rfl
    exact absurd (Json.isNumeral_of_mem member) (by decide)
  have stop : t.overflowEnd.dropWhile (· ≠ ' ') = t.overflowEnd ∧ t.overflowEnd.takeWhile (· ≠ ' ') = [] := by
    cases t <;> decide
  have start : overflowStart <+: (t.overflowRow n).toList := by
    rw [toList_overflowRow]
    exact List.prefix_append _ _
  rw [unlisted?]
  simp only [start, true_and]
  rw [toList_overflowRow, List.drop_left, List.dropWhile_append_of_pos digits, List.takeWhile_append_of_pos digits,
    stop.1, stop.2, List.append_nil, String.ofList_toList]
  by_cases own : s = t
  · rw [if_pos own, if_pos (congrArg overflowEnd own.symm)]
    exact Int.toInt?_repr n
  · rw [if_neg own, if_neg fun same => own (overflowEnd_injective same).symm]

theorem unlisted?_of_head {row : String} (other : row.toList.head? ≠ some '.') : s.unlisted? row = none := by
  refine if_neg fun tells => other ?_
  obtain ⟨rest, whole⟩ := tells.1
  rw [← whole]
  rfl

theorem filterMap_unlisted?_rows (lines : List String) (limit : Int) : (t.rows lines limit).filterMap s.unlisted? =
    if s = t then if lines ≠ [] ∧ limit < lines.length then [(lines.length : Int) - limit] else [] else [] := by
  by_cases some : lines = []
  · simp [rows, some]
  · have header : s.unlisted? (t.header lines.length) = none := by
      refine s.unlisted?_of_head ?_
      obtain ⟨rest, begins⟩ := t.header_begins lines.length
      rw [begins]
      cases t <;> simp [marker]
    have listed : ((shown limit lines).map t.row).filterMap s.unlisted? = [] := by
      refine List.filterMap_eq_nil_iff.mpr fun row member => s.unlisted?_of_head ?_
      obtain ⟨line, _, rfl⟩ := List.mem_map.mp member
      rw [toList_row]
      cases t <;> simp [marker]
    rw [rows_eq t some, List.cons_append, List.filterMap_cons_none header, List.filterMap_append, listed,
      List.nil_append, overflow_eq]
    by_cases more : limit < lines.length
    · have told := s.unlisted?_overflowRow t ((lines.length : Int) - limit)
      rw [if_pos more]
      by_cases own : s = t
      · rw [if_pos own] at told
        rw [List.filterMap_cons_some told, List.filterMap_nil, if_pos own, if_pos ⟨some, more⟩]
      · rw [if_neg own] at told
        rw [List.filterMap_cons_none told, List.filterMap_nil, if_neg own]
    · have none : ¬ (lines ≠ [] ∧ limit < lines.length) := fun h => more h.2
      rw [if_neg more, List.filterMap_nil, if_neg none, ite_self]

/-- The lines that a section is about. -/
def missing (left right : String) : Section → List String
  | .removed => missingLines left right
  | .added => missingLines right left

end Section

theorem head_ne_dot (left right : String) : ∀ row ∈ excerptHead left right, row.toList.head? ≠ some '.' := by
  simp [excerptHead, sizeLine, sizeChange]

/-- What is read off the rows of an excerpt is read off its two sections, if nothing is read off other rows. -/
theorem filterMap_excerptLines {α : Type} {f : String → Option α}
    (silent : ∀ row, Quiet row → row.toList.head? ≠ some '.' → f row = none) (left right : String) (limit : Int) :
    (excerptLines left right limit).filterMap f =
      (Section.removed.rows (missingLines left right) limit).filterMap f ++
        (Section.added.rows (missingLines right left) limit).filterMap f := by
  have head : (excerptHead left right).filterMap f = [] := List.filterMap_eq_nil_iff.mpr fun row member =>
    silent row (quiet_head left right row member) (head_ne_dot left right row member)
  have gap : (excerptGap left right).filterMap f = [] := by
    have empty := silent "" quiet_empty (by decide)
    rw [excerptGap]
    split <;> simp [empty]
  have note : (excerptNote left right).filterMap f = [] := by
    have same := silent sameLinesNote quiet_sameLinesNote (by decide)
    rw [excerptNote]
    split <;> simp [same]
  simp only [excerptLines_eq, List.filterMap_append, head, gap, note, List.nil_append, List.append_nil]

namespace Section
variable (s : Section) (left right : String) (limit : Int)

theorem listedCount_excerptLines :
    s.listedCount (excerptLines left right limit) = (shown limit (s.missing left right)).length := by
  rw [listedCount, filterMap_excerptLines (fun row quiet _ => quiet.listed? s), filterMap_rows, filterMap_rows]
  cases s <;> simp [missing]

theorem unlistedCount_excerptLines : s.unlistedCount (excerptLines left right limit) =
    if s.missing left right ≠ [] ∧ limit < (s.missing left right).length then
      ((s.missing left right).length : Int) - limit else 0 := by
  rw [unlistedCount, filterMap_excerptLines (fun row _ other => s.unlisted?_of_head other),
    filterMap_unlisted?_rows, filterMap_unlisted?_rows]
  cases s with
  | removed =>
      simp only [missing, if_true, reduceCtorEq, if_false, List.append_nil]
      rw [apply_ite List.sum, List.sum_singleton, List.sum_nil]
      rfl
  | added =>
      simp only [missing, if_true, reduceCtorEq, if_false, List.nil_append]
      rw [apply_ite List.sum, List.sum_singleton, List.sum_nil]
      rfl

theorem header_mem_excerptLines {n : Nat} : s.header n ∈ excerptLines left right limit ↔
    s.missing left right ≠ [] ∧ n = (s.missing left right).length := by
  have apart {rows : List String} (quiet : ∀ row ∈ rows, Quiet row) : s.header n ∉ rows := fun member =>
    (quiet _ member).ne_header s n rfl
  simp only [excerptLines_eq, List.mem_append, apart (quiet_head left right), apart (quiet_gap left right),
    apart (quiet_note left right), header_mem_rows, false_or, or_false]
  cases s <;> simp [missing]

end Section

theorem length_shown {α : Type} (limit : Int) (lines : List α) : (shown limit lines).length =
    if limit < 0 then lines.length - limit.natAbs else min limit.toNat lines.length := by
  rw [shown]
  split
  · rw [List.length_take]
    omega
  · exact List.length_take

/-- In every section of an excerpt, the lines that are listed and those that are only counted make up the number in
the header, but for a limit below zero: there the counted ones alone are more than the header says, and both
together exceed it by that number or by the limit. -/
theorem modifiedExcerpt_balance (left right : String) (limit : Int) (s : Section) {counted : Nat}
    (header : s.header counted ∈ feedLines (modifiedExcerpt left right limit)) :
    let rows := feedLines (modifiedExcerpt left right limit)
    (s.listedCount rows + s.unlistedCount rows = counted ↔ 0 ≤ limit) ∧
    (limit < 0 → s.listedCount rows + s.unlistedCount rows = counted + max counted limit.natAbs) := by
  simp only [feedLines_modifiedExcerpt] at header ⊢
  obtain ⟨some, rfl⟩ := (s.header_mem_excerptLines left right limit).mp header
  have positive := List.length_pos_of_ne_nil some
  rw [s.listedCount_excerptLines, s.unlistedCount_excerptLines, length_shown]
  simp only [some, ne_eq, not_false_eq_true, true_and]
  generalize (s.missing left right).length = lines at positive
  constructor
  · split <;> split <;> omega
  · -- The slice leaves out as many lines at the end as the limit is below zero, while the counter adds them.
    intro negative
    rw [if_pos negative, if_pos (by omega)]
    omega

/-- Of two lines, one is listed and one is counted. -/
theorem modifiedExcerpt_balance_oneLine :
    Section.removed.header 2 ∈ feedLines (modifiedExcerpt "call\nreply" "" 1) ∧
    Section.removed.listedCount (feedLines (modifiedExcerpt "call\nreply" "" 1)) +
      Section.removed.unlistedCount (feedLines (modifiedExcerpt "call\nreply" "" 1)) = 2 := by
  have lines : Section.removed.missing "call\nreply" "" = ["call", "reply"] := by decide
  have header : Section.removed.header 2 ∈ feedLines (modifiedExcerpt "call\nreply" "" 1) := by
    rw [feedLines_modifiedExcerpt, Section.header_mem_excerptLines, lines]
    decide
  exact ⟨header, (modifiedExcerpt_balance "call\nreply" "" 1 .removed header).1.mpr (by decide)⟩

/-- A limit of minus one lists one of the two lines, and tells of three more. -/
theorem modifiedExcerpt_balance_belowZero :
    Section.removed.header 2 ∈ feedLines (modifiedExcerpt "call\nreply" "" (-1)) ∧
    Section.removed.listedCount (feedLines (modifiedExcerpt "call\nreply" "" (-1))) = 1 ∧
    Section.removed.unlistedCount (feedLines (modifiedExcerpt "call\nreply" "" (-1))) = 3 := by
  have lines : Section.removed.missing "call\nreply" "" = ["call", "reply"] := by decide
  rw [feedLines_modifiedExcerpt, Section.header_mem_excerptLines, Section.listedCount_excerptLines,
    Section.unlistedCount_excerptLines, lines]
  decide

end ExportDiff.Change
