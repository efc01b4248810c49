/- A pattern with a stretch tries the last place first: what the match gives back, when the places where the rest
cannot match are known. -/
import ExportDiff.Proofs.Text.Bar

namespace ExportDiff.Text

section
variable {p : Char → Bool} {next : List Char → Option Match} {c : Char} {s t u v : List Char}

theorem map_captured_after (n : Nat) (m : Option Match) :
    (m.map (Match.after n)).map (·.captured) = m.map (·.captured) := by
  cases m <;> rfl

theorem longest_cons (hc : p c = true) :
    longest p next (c :: s) = ((longest p next s).map (Match.after 1)).or (next (c :: s)) := by
  rw [longest, if_pos hc]

theorem longest_of_none (h : longest p next s = none) : longest p next (c :: s) = next (c :: s) := by
  rw [longest, h]
  split <;> rfl

/-- Where the rest cannot match, the stretch goes on. -/
theorem captured_longest_skip (all : t.all p = true) (fails : ∀ x, x ≠ [] → x <:+ t → next (x ++ s) = none) :
    (longest p next (t ++ s)).map (·.captured) = (longest p next s).map (·.captured) := by
  induction t with
  | nil => rfl
  | cons c t ih =>
      rw [List.all_cons, Bool.and_eq_true] at all
      have here := fails (c :: t) (List.cons_ne_nil c t) List.suffix_rfl
      rw [List.cons_append] at here
      rw [List.cons_append, longest_cons all.1, here, Option.or_none, map_captured_after,
        ih all.2 fun x some suffix => fails x some (suffix.trans (List.suffix_cons c t))]

theorem takeExactly_eq_ite (p : Char → Bool) (n : Nat) (s : List Char) :
    (takeExactly p n s).map (·.1) = if n ≤ (s.takeWhile p).length then some (s.take n) else none := by
  induction n generalizing s with
  | zero => rfl
  | succ n ih =>
      cases s with
      | nil => rfl
      | cons c s =>
          rw [takeExactly, List.takeWhile_cons]
          split
          · have later := congrArg (Option.map (c :: ·)) (ih s)
            rw [Option.map_map] at later ⊢
            simp only [List.length_cons, Nat.add_le_add_iff_right, List.take_succ_cons]
            rw [apply_ite (Option.map (c :: ·))] at later
            exact later
          · exact (if_neg (Nat.not_succ_le_zero n)).symm

/-- No match begins among characters of which none is the first one of the text. -/
theorem matchPieces_text_of_not_mem {w : String} {ps : List Piece} {x : List Char} (head : w.toList.head? = some c)
    (h : c ∉ t) (some : x ≠ []) (suffix : x <:+ t) : matchPieces (.text w :: ps) (x ++ s) = none := by
  refine matchPieces_text_eq_none fun start => ?_
  obtain ⟨w', same⟩ := List.head?_eq_some_iff.mp head
  cases x with
  | nil => exact some rfl
  | cons d x =>
      rw [same, List.cons_append, List.cons_prefix_cons] at start
      exact h (start.1 ▸ suffix.subset List.mem_cons_self)

/-- A text that ends at the first place of a character begins another one just when that comes as far. -/
theorem closed_prefix_iff (hu : c ∉ u) (hv : c ∉ v) : u ++ [c] <+: v ++ c :: s ↔ u = v := by
  constructor
  · rintro ⟨t, same⟩
    rw [List.append_assoc, List.singleton_append] at same
    exact before_first hu hv same
  · rintro rfl
    exact ⟨s, by rw [List.append_assoc, List.singleton_append]⟩

end

end ExportDiff.Text
