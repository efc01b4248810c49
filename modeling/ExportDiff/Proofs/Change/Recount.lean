/- A summary counts the items of each severity and of each category exactly. -/
import ExportDiff.Change.FileDiff
import ExportDiff.Proofs.Change.Summary
import Mathlib.Algebra.BigOperators.Group.List.Basic
import Mathlib.Algebra.Ring.Nat

namespace ExportDiff.Change
open Snapshot

/-- Every item has one value among these, so the items of the values add up to all of them. -/
theorem sum_countP {α β : Type} [DecidableEq β] (f : α → β) {values : List β}
    (once : ∀ b, values.count b = 1) (xs : List α) :
    (values.map fun b => xs.countP fun x => f x = b).sum = xs.length := by
  have ones (b : β) (vs : List β) : (vs.map fun c => if b = c then 1 else 0).sum = vs.count b := by
    induction vs with
    | nil => rfl
    | cons c vs ih =>
        rw [List.map_cons, List.sum_cons, ih, List.count_cons, Nat.add_comm]
        simp [eq_comm (a := b)]
  induction xs with
  | nil => simp
  | cons x xs ih =>
      simp only [List.countP_cons, decide_eq_true_eq, List.sum_map_add, ih, ones, once,
        List.length_cons]

namespace Summary

def ofSeverity (s : Summary) : Severity → Nat
  | .high => s.high
  | .medium => s.medium
  | .low => s.low
  | .info => s.info

def ofCategory (s : Summary) (c : Category) : Nat := ((s.categories.find? (·.1 = c)).map (·.2)).getD 0

/-- Field by field. -/
instance : Add Summary :=
  ⟨fun s t => ⟨s.high + t.high, s.medium + t.medium, s.low + t.low, s.info + t.info,
    s.categories.map fun p => (p.1, p.2 + t.ofCategory p.1)⟩⟩

theorem ofSeverity_add (s t : Summary) (v : Severity) :
    (s + t).ofSeverity v = s.ofSeverity v + t.ofSeverity v := by
  cases v <;> rfl

theorem eq_of_counts {s t : Summary} (severity : ∀ v, s.ofSeverity v = t.ofSeverity v)
    (categories : s.categories = t.categories) : s = t := by
  cases s
  cases t
  congr
  · exact severity .high
  · exact severity .medium
  · exact severity .low
  · exact severity .info

theorem total_eq (s : Summary) : s.total = (Severity.all.map s.ofSeverity).sum := by
  simp [total, Severity.all, ofSeverity, Nat.add_assoc]

theorem ofSeverity_record (s : Summary) (i : Item) (v : Severity) :
    (s.record i).ofSeverity v = s.ofSeverity v + if i.rating.severity = v then 1 else 0 := by
  unfold record
  cases i.rating.severity <;> cases v <;> rfl

theorem categories_record (s : Summary) (i : Item) :
    (s.record i).categories = s.categories.map fun p =>
      (p.1, p.2 + if i.category = p.1 then 1 else 0) := by
  have counted : (s.record i).categories = countIn i.category s.categories := by
    unfold record
    cases i.rating.severity <;> rfl
  rw [counted, countIn]
  refine List.map_congr_left fun p _ => ?_
  obtain ⟨c, n⟩ := p
  by_cases same : c = i.category
  · simp [same]
  · simp [same, Ne.symm same]

theorem ofSeverity_foldl (s : Summary) (items : List Item) (v : Severity) :
    (items.foldl record s).ofSeverity v = s.ofSeverity v + items.countP (·.rating.severity = v) := by
  induction items generalizing s with
  | nil => rfl
  | cons i items ih =>
      rw [List.foldl_cons, ih, ofSeverity_record, List.countP_cons]
      simp only [decide_eq_true_eq]
      omega

theorem categories_foldl (s : Summary) (items : List Item) :
    (items.foldl record s).categories = s.categories.map fun p =>
      (p.1, p.2 + items.countP (·.category = p.1)) := by
  induction items generalizing s with
  | nil => simp
  | cons i items ih =>
      rw [List.foldl_cons, ih, categories_record, List.map_map]
      refine List.map_congr_left fun p _ => ?_
      simp only [Function.comp_apply, List.countP_cons, decide_eq_true_eq, Prod.mk.injEq, true_and]
      omega

end Summary

theorem ofSeverity_summarize (items : List Item) (v : Severity) :
    (summarize items).ofSeverity v = items.countP (·.rating.severity = v) := by
  have none : Summary.empty.ofSeverity v = 0 := by cases v <;> rfl
  rw [summarize, Summary.ofSeverity_foldl, none, Nat.zero_add]

theorem categories_summarize (items : List Item) :
    (summarize items).categories = Category.all.map fun c => (c, items.countP (·.category = c)) := by
  rw [summarize, Summary.categories_foldl, Summary.empty, List.map_map]
  simp only [Function.comp_def, Nat.zero_add]

theorem ofCategory_summarize (items : List Item) (c : Category) :
    (summarize items).ofCategory c = items.countP (·.category = c) := by
  rw [Summary.ofCategory, categories_summarize]
  cases c <;> rfl

/-- The counters of a summary are those of the items. -/
structure Counts (items : List Item) (s : Summary) : Prop where
  severity : ∀ v, s.ofSeverity v = items.countP (·.rating.severity = v)
  categories : s.categories = Category.all.map fun c => (c, items.countP (·.category = c))
  bySeverity : s.total = items.length
  byCategory : (s.categories.map (·.2)).sum = items.length

theorem summarize_counts (items : List Item) : Counts items (summarize items) := by
  refine ⟨ofSeverity_summarize items, categories_summarize items, ?_, ?_⟩
  · have once : ∀ v, Severity.all.count v = 1 := by
      intro v
      cases v <;> rfl
    rw [Summary.total_eq, funext (ofSeverity_summarize items)]
    exact sum_countP (·.rating.severity) once items
  · have once : ∀ c, Category.all.count c = 1 := by
      intro c
      cases c <;> rfl
    rw [categories_summarize, List.map_map]
    exact sum_countP (·.category) once items

theorem summarize_append (xs ys : List Item) : summarize (xs ++ ys) = summarize xs + summarize ys := by
  refine Summary.eq_of_counts (fun v => ?_) ?_
  · rw [Summary.ofSeverity_add, ofSeverity_summarize, ofSeverity_summarize, ofSeverity_summarize,
      List.countP_append]
  · change _ = (summarize xs).categories.map fun p => (p.1, p.2 + (summarize ys).ofCategory p.1)
    rw [categories_summarize, categories_summarize, List.map_map]
    refine List.map_congr_left fun c _ => ?_
    rw [Function.comp_apply, ofCategory_summarize, List.countP_append]

/-- Summaries count exactly and add up, and a comparison reports the recount of its items in whatever
order they are counted. -/
theorem summaries_recount :
    (∀ items, Counts items (summarize items)) ∧
    (∀ xs ys, summarize (xs ++ ys) = summarize xs + summarize ys) ∧
    ∀ lineLimit left right items, items.Perm (compareFiles lineLimit left right).items →
      (compareFiles lineLimit left right).summary = summarize items := by
  refine ⟨summarize_counts, summarize_append, ?_⟩
  intro lineLimit left right items perm
  exact (summarize_perm perm).symm

/-- A new connection and a new readme, counted from the end. -/
theorem summaries_recount_backwards :
    let d := compareFiles 50 [] [⟨"a/orders.jca", "1", 1, none⟩, ⟨"readme.txt", "2", 1, none⟩]
    d.items.length = 2 ∧ d.items.reverse.Perm d.items ∧ d.summary = summarize d.items.reverse := by
  refine ⟨by decide +kernel, List.reverse_perm _, ?_⟩
  exact summaries_recount.2.2 50 _ _ _ (List.reverse_perm _)

end ExportDiff.Change
