/- Trimming leaves a part of a text that has no white space at its ends, and does not reach beyond what is
no white space. -/
import ExportDiff.Text.CharClass
import Mathlib.Data.List.Infix

namespace ExportDiff.Text

theorem trimEnd_initial (s : List Char) : trimEnd s <+: s := by
  have dropped : s.reverse.dropWhile isBlank <:+ s.reverse := List.dropWhile_suffix isBlank
  rw [trimEnd, ← List.reverse_suffix, List.reverse_reverse]
  exact dropped

theorem trim_sublist (s : List Char) : (trim s).Sublist s :=
  (trimEnd_initial _).sublist.trans (List.dropWhile_sublist isBlank)

theorem head?_dropWhile {p : Char → Bool} {s : List Char} {c : Char} (h : (s.dropWhile p).head? = some c) :
    p c = false := by
  have first := List.head?_dropWhile_not p s
  rw [h] at first
  exact first

theorem head?_trim {s : List Char} {c : Char} (h : (trim s).head? = some c) : isBlank c = false := by
  obtain ⟨rest, same⟩ := trimEnd_initial (trimStart s)
  apply head?_dropWhile (p := isBlank) (s := s)
  change (trimStart s).head? = some c
  rw [← same, List.head?_append, show (trimEnd (trimStart s)).head? = some c from h]
  rfl

theorem getLast?_trim {s : List Char} {c : Char} (h : (trim s).getLast? = some c) : isBlank c = false := by
  rw [trim, trimEnd, List.getLast?_reverse] at h
  exact head?_dropWhile h

/-- Dropping ends where a character of another class follows. -/
theorem dropWhile_append_of_stop {p : Char → Bool} {s : List Char} (stop : s.head?.any p = false)
    (r : List Char) : (r ++ s).dropWhile p = r.dropWhile p ++ s := by
  have stays : s.dropWhile p = s := by
    cases s with
    | nil => rfl
    | cons c s => exact List.dropWhile_cons_of_neg (Bool.eq_false_iff.mp stop)
  rw [List.dropWhile_append, stays]
  split
  · rename_i none
    rw [List.isEmpty_iff.mp none, List.nil_append]
  · rfl

theorem trimStart_append {s : List Char} (stop : s.head?.any isBlank = false) (a : List Char) :
    trimStart (a ++ s) = trimStart a ++ s := dropWhile_append_of_stop stop a

theorem trimEnd_append {a : List Char} (stop : a.getLast?.any isBlank = false) (s : List Char) :
    trimEnd (a ++ s) = a ++ trimEnd s := by
  have head : a.reverse.head?.any isBlank = false := by rwa [List.head?_reverse]
  rw [trimEnd, List.reverse_append, dropWhile_append_of_stop head, List.reverse_append, List.reverse_reverse, trimEnd]

end ExportDiff.Text
