/- Where a text stands in another one; and pieces as the library's split: joining texts that have no
separator and taking the pieces undo each other. -/
import ExportDiff.Text.Search
import Mathlib.Data.List.Infix

namespace ExportDiff.Text

theorem occursIn_iff {part s : List Char} : occursIn part s = true ↔ part <:+: s := by
  induction s with
  | nil => rw [occursIn, List.isEmpty_iff, List.infix_nil]
  | cons c s ih => rw [occursIn, Bool.or_eq_true, List.isPrefixOf_iff_prefix, ih, List.infix_cons_iff]

theorem mentions_iff {s part : String} : mentions s part = true ↔ part.toList <:+: s.toList := occursIn_iff

theorem mentions_trans {s t u : String} (h : mentions s t = true) (h' : mentions t u = true) :
    mentions s u = true := by
  rw [mentions_iff] at *
  exact h'.trans h

theorem mentions_of_endsIn {s t : String} (h : endsIn s [t] = true) : mentions s t = true := by
  rw [endsIn, List.any_cons, List.any_nil, Bool.or_false, List.isSuffixOf_iff_suffix] at h
  exact mentions_iff.mpr h.isInfix

variable {sep : Char} {s p : List Char}

theorem pieces_eq_splitOnP (sep : Char) (s : List Char) : pieces sep s = s.splitOnP (· == sep) := by
  induction s with
  | nil => rfl
  | cons c s ih =>
      rw [List.splitOnP_cons_eq_if_modifyHead, pieces, ih]
      by_cases same : c = sep
      · rw [if_pos same, if_pos (beq_iff_eq.mpr same)]
      · rw [if_neg same, if_neg (mt beq_iff_eq.mp same)]
        cases first : s.splitOnP (· == sep) with
        | nil => exact absurd first (List.splitOnP_ne_nil _ s)
        | cons p ps => rfl

theorem pieces_ne_nil (sep : Char) (s : List Char) : pieces sep s ≠ [] := by
  rw [pieces_eq_splitOnP]
  exact List.splitOnP_ne_nil _ s

theorem pieces_cons_of_ne {c : Char} (other : c ≠ sep) (s : List Char) :
    ∃ p ps, pieces sep s = p :: ps ∧ pieces sep (c :: s) = (c :: p) :: ps := by
  obtain ⟨p, ps, first⟩ := List.exists_cons_of_ne_nil (pieces_ne_nil sep s)
  exact ⟨p, ps, first, by rw [pieces, if_neg other, first]⟩

theorem pieces_append_sep (sep : Char) (a b : List Char) :
    pieces sep (a ++ sep :: b) = pieces sep a ++ pieces sep b := by
  have cut : (sep == sep) = true := beq_self_eq_true sep
  rw [pieces_eq_splitOnP, pieces_eq_splitOnP, pieces_eq_splitOnP]
  exact List.splitOnP_append_cons (p := (· == sep)) a b cut

theorem not_mem_of_mem_pieces (h : p ∈ pieces sep s) : sep ∉ p := by
  induction s generalizing p with
  | nil =>
      rw [List.mem_singleton.mp h]
      exact List.not_mem_nil
  | cons c s ih =>
      by_cases same : c = sep
      · rw [pieces, if_pos same] at h
        rcases List.mem_cons.mp h with rfl | later
        · exact List.not_mem_nil
        · exact ih later
      · obtain ⟨q, qs, first, whole⟩ := pieces_cons_of_ne same s
        rw [first] at ih
        rw [whole] at h
        rcases List.mem_cons.mp h with rfl | later
        · rw [List.mem_cons, not_or]
          exact ⟨Ne.symm same, ih List.mem_cons_self⟩
        · exact ih (List.mem_cons_of_mem q later)

theorem prefix_of_pieces {ps : List (List Char)} (h : pieces sep s = p :: ps) : p <+: s := by
  induction s generalizing p ps with
  | nil =>
      rw [← (List.cons.inj h).1]
  | cons c s ih =>
      by_cases same : c = sep
      · rw [pieces, if_pos same] at h
        rw [← (List.cons.inj h).1]
        exact List.nil_prefix
      · obtain ⟨q, qs, first, whole⟩ := pieces_cons_of_ne same s
        rw [(List.cons.inj (h.symm.trans whole)).1]
        exact List.cons_prefix_cons.mpr ⟨rfl, ih first⟩

theorem infix_of_mem_pieces (h : p ∈ pieces sep s) : p <:+: s := by
  induction s generalizing p with
  | nil =>
      rw [List.mem_singleton.mp h]
  | cons c s ih =>
      by_cases same : c = sep
      · rw [pieces, if_pos same] at h
        rcases List.mem_cons.mp h with rfl | later
        · exact List.nil_infix
        · exact List.infix_cons (ih later)
      · obtain ⟨q, qs, first, whole⟩ := pieces_cons_of_ne same s
        rw [whole] at h
        rcases List.mem_cons.mp h with rfl | later
        · exact (List.cons_prefix_cons.mpr ⟨rfl, prefix_of_pieces first⟩).isInfix
        · exact List.infix_cons (ih (first ▸ List.mem_cons_of_mem q later))

theorem pieces_of_not_mem (free : sep ∉ s) : pieces sep s = [s] := by
  rw [pieces_eq_splitOnP, List.splitOnP_eq_singleton]
  intro c member
  rw [beq_eq_false_iff_ne]
  rintro rfl
  exact free member

theorem pieces_eq_splitOn (sep : Char) (s : List Char) : pieces sep s = s.splitOn sep := by
  rw [pieces_eq_splitOnP, List.splitOn_eq_splitOnP]

theorem intercalate_pieces (sep : Char) (s : List Char) : [sep].intercalate (pieces sep s) = s := by
  rw [pieces_eq_splitOn, List.intercalate_splitOn]

theorem pieces_intercalate {ps : List (List Char)} (free : ∀ p ∈ ps, sep ∉ p) (some : ps ≠ []) :
    pieces sep ([sep].intercalate ps) = ps := by
  rw [pieces_eq_splitOn, List.splitOn_intercalate sep free some]

theorem toList_join (sep : String) (ss : List String) :
    (join sep ss).toList = sep.toList.intercalate (ss.map String.toList) := by
  induction ss with
  | nil => rfl
  | cons s ss ih =>
      cases ss with
      | nil => simp [join]
      | cons t ss => simp [join, ih, List.intercalate_cons_cons]

theorem stringPieces_join {w : String} (hw : w.toList = [sep]) {ss : List String}
    (free : ∀ s ∈ ss, sep ∉ s.toList) (some : ss ≠ []) : stringPieces sep (join w ss) = ss := by
  have apart : ∀ p ∈ ss.map String.toList, sep ∉ p := List.forall_mem_map.mpr free
  rw [stringPieces, toList_join, hw, pieces_intercalate apart (by simpa using some), List.map_map]
  simp [Function.comp_def]

end ExportDiff.Text
