/- Laying out markup changes white space only, and what is laid out stays as it is: taken apart again, it gives the
lines that it was put together from. -/
import ExportDiff.Pretty.Markup
import ExportDiff.Proofs.Text.Blank
import ExportDiff.Proofs.Text.Pieces
import ExportDiff.Proofs.Text.Replace
import Mathlib.Data.List.TakeWhile

namespace ExportDiff.Pretty
open Text

/-- The text with a break at every tag boundary. -/
def spread (s : List Char) : List Char := tagBoundary.replaceAll ">\n<".toList s

/-- A tag is the first thing behind the white space. -/
def TagNext (s : List Char) : Prop := (trimStart s).head? = some '<'

instance (s : List Char) : Decidable (TagNext s) := inferInstanceAs (Decidable (_ = _))

/-- The lines of a text that hold something, trimmed. -/
def heldLines (s : List Char) : List (List Char) := ((pieces '\n' s).map trim).filter (· ≠ [])

/-- What is left of a text without its white space. -/
def solid (s : List Char) : List Char := s.filter (!isBlank ·)

/-- Two tags with nothing but white space between them stand nowhere in the text. -/
def Unbroken (s : List Char) : Prop := ∀ g, (∀ c ∈ g, isBlank c = true) → ¬ '>' :: (g ++ ['<']) <:+: s

/-- What can be a line of a text laid out. -/
structure IsLine (l : List Char) : Prop where
  some : l ≠ []
  trimmed : trim l = l
  single : '\n' ∉ l
  unbroken : Unbroken l

theorem markupLines_eq (s : List Char) : markupLines s = heldLines (spread s) := rfl

/-- The level at which a line stands behind lines that lead to a level. -/
def levelAt (level : Nat) (line : List Char) : Nat := if isEndTag line then level - 1 else level

/-- The level to which a line leads. -/
def levelAfter (level : Nat) (line : List Char) : Nat :=
  if opensElement line then levelAt level line + 1 else levelAt level line

theorem indentFrom_cons (level : Nat) (l : List Char) (ls : List (List Char)) : indentFrom level (l :: ls) =
    (List.replicate (2 * levelAt level l) ' ' ++ l) :: indentFrom (levelAfter level l) ls := rfl

section
variable {c : Char} {g l s : List Char}

/-! Breaks at tag boundaries. -/

theorem trimStart_blanks (blank : ∀ c ∈ g, isBlank c = true) (s : List Char) : trimStart (g ++ s) = trimStart s :=
  List.dropWhile_append_of_pos blank

theorem trimStart_split (s : List Char) : ∃ g, (∀ c ∈ g, isBlank c = true) ∧ s = g ++ trimStart s :=
  ⟨s.takeWhile isBlank, takeWhile_all isBlank s, List.takeWhile_append_dropWhile.symm⟩

theorem tagNext_iff : TagNext s ↔ ∃ g r, (∀ c ∈ g, isBlank c = true) ∧ s = g ++ '<' :: r := by
  constructor
  · intro next
    obtain ⟨g, blank, split⟩ := trimStart_split s
    obtain ⟨r, same⟩ := List.head?_eq_some_iff.mp next
    exact ⟨g, r, blank, by rw [← same]; exact split⟩
  · rintro ⟨g, r, blank, rfl⟩
    rw [TagNext, trimStart_blanks blank]
    rfl

theorem matchAt_boundary_of_ne (other : c ≠ '>') (before : Option Char) (s : List Char) :
    tagBoundary.matchAt before (c :: s) = none := by
  rw [tagBoundary, Pattern.matchAt_anywhere, matchPieces_text_eq_none]
  intro begins
  exact other (List.cons_prefix_cons.mp begins).1.symm

theorem matchAt_boundary (before : Option Char) (s : List Char) : tagBoundary.matchAt before ('>' :: s) =
    (matchPieces [.text "<"] (trimStart s)).map fun m => (m.after (s.takeWhile isBlank).length).after 1 := by
  have first : matchPieces [.text ">", .gap isBlank, .text "<"] (">".toList ++ s) = _ := matchPieces_text_append
  rw [matchPieces, Option.map_map] at first
  rw [tagBoundary, Pattern.matchAt_anywhere]
  exact first

theorem matchAt_boundary_of_not (none : ¬ TagNext s) (before : Option Char) :
    tagBoundary.matchAt before ('>' :: s) = .none := by
  rw [matchAt_boundary, matchPieces_text_eq_none, Option.map_none]
  rintro ⟨r, same⟩
  exact none (congrArg List.head? same).symm

theorem spread_of_ne (other : c ≠ '>') (s : List Char) : spread (c :: s) = c :: spread s := by
  rw [spread, Pattern.replaceAll, Pattern.replaceFrom, matchAt_boundary_of_ne other, Pattern.replaceFrom_free rfl]
  rfl

theorem spread_blanks (blank : ∀ c ∈ g, isBlank c = true) (s : List Char) : spread (g ++ s) = g ++ spread s := by
  induction g with
  | nil => rfl
  | cons c g ih =>
      obtain ⟨first, others⟩ := List.forall_mem_cons.mp blank
      have other : c ≠ '>' := by
        rintro rfl
        exact absurd first (by decide)
      rw [List.cons_append, spread_of_ne other, ih others]
      rfl

theorem spread_boundary (blank : ∀ c ∈ g, isBlank c = true) (s : List Char) :
    spread ('>' :: (g ++ '<' :: s)) = '>' :: '\n' :: '<' :: spread s := by
  have rest : trimStart (g ++ '<' :: s) = "<".toList ++ s := by
    rw [trimStart_blanks blank]
    rfl
  have gap : (g ++ '<' :: s).takeWhile isBlank = g := by
    rw [List.takeWhile_append_of_pos blank]
    exact List.append_nil g
  have found := matchAt_boundary none (g ++ '<' :: s)
  rw [rest, gap, matchPieces_text_append] at found
  have whole : '>' :: (g ++ '<' :: s) = ('>' :: (g ++ ['<'])) ++ s := by simp
  rw [whole] at found ⊢
  have size : 1 + (g.length + (1 + 0)) = ('>' :: (g ++ ['<'])).length := by
    simp
    omega
  have replaced := Pattern.replaceFrom_matched ">\n<".toList found size (List.cons_ne_nil _ _)
  rw [spread, Pattern.replaceAll, replaced, Pattern.replaceFrom_free (by cases ('>' :: (g ++ ['<'])).getLast? <;> rfl)]
  rfl

/-- A break comes behind a tag that another one follows, in place of the white space between them. -/
theorem spread_cons (c : Char) (s : List Char) :
    spread (c :: s) = c :: if c = '>' ∧ TagNext s then '\n' :: trimStart (spread s) else spread s := by
  by_cases boundary : c = '>' ∧ TagNext s
  · obtain ⟨rfl, next⟩ := boundary
    rw [if_pos ⟨rfl, next⟩]
    obtain ⟨g, r, blank, rfl⟩ := tagNext_iff.mp next
    rw [spread_boundary blank, spread_blanks blank, trimStart_blanks blank, spread_of_ne (by decide)]
    rfl
  · rw [if_neg boundary]
    by_cases close : c = '>'
    · obtain rfl := close
      have none : ¬ TagNext s := fun next => boundary ⟨rfl, next⟩
      rw [spread, Pattern.replaceAll, Pattern.replaceFrom, matchAt_boundary_of_not none, Pattern.replaceFrom_free rfl]
      rfl
    · exact spread_of_ne close s

/-! White space. -/

theorem solid_cons_of_blank (blank : isBlank c = true) (s : List Char) : solid (c :: s) = solid s := by
  simp [solid, blank]

theorem solid_append (s t : List Char) : solid (s ++ t) = solid s ++ solid t := List.filter_append ..

theorem solid_blanks (blank : ∀ c ∈ g, isBlank c = true) : solid g = [] := by
  simpa [solid] using blank

theorem solid_trimStart (s : List Char) : solid (trimStart s) = solid s := by
  obtain ⟨g, blank, split⟩ := trimStart_split s
  conv_rhs => rw [split, solid_append, solid_blanks blank, List.nil_append]

theorem head?_trimStart_eq (s : List Char) : (trimStart s).head? = (solid s).head? := by
  rw [← solid_trimStart]
  cases first : trimStart s with
  | nil => rfl
  | cons c t =>
      have shown : isBlank c = false := head?_dropWhile (s := s) (congrArg List.head? first)
      simp [solid, shown]

theorem tagNext_iff_solid : TagNext s ↔ (solid s).head? = some '<' := by
  rw [TagNext, head?_trimStart_eq]

theorem tagNext_append {t : List Char} (some : solid t ≠ []) (s : List Char) : TagNext (t ++ s) ↔ TagNext t := by
  rw [tagNext_iff_solid, tagNext_iff_solid, solid_append, List.head?_append_of_ne_nil _ some]

theorem solid_ne_nil {t : List Char} (some : t ≠ []) (last : t.getLast?.any isBlank = false) : solid t ≠ [] := by
  intro none
  rw [solid, List.filter_eq_nil_iff] at none
  have blank := none _ (List.getLast_mem some)
  rw [List.getLast?_eq_getLast_of_ne_nil some] at last
  simp_all

theorem solid_trim (s : List Char) : solid (trim s) = solid s := by
  have turned := solid_trimStart (trimStart s).reverse
  rw [solid, solid, List.filter_reverse, ← List.reverse_inj, List.reverse_reverse, ← List.filter_reverse] at turned
  exact turned.trans (solid_trimStart s)

theorem head?_trim_eq (s : List Char) : (trim s).head? = (solid s).head? := by
  rw [← solid_trim]
  cases first : trim s with
  | nil => rfl
  | cons c t =>
      have shown : isBlank c = false := head?_trim (s := s) (by rw [first]; rfl)
      simp [solid, shown]

theorem solid_spread (s : List Char) : solid (spread s) = solid s := by
  induction s with
  | nil => rfl
  | cons c s ih =>
      have rest : solid (if c = '>' ∧ TagNext s then '\n' :: trimStart (spread s) else spread s) = solid s := by
        split
        · rw [solid_cons_of_blank (by decide), solid_trimStart, ih]
        · exact ih
      rw [spread_cons, ← List.singleton_append, solid_append, rest, ← solid_append]
      rfl

theorem joinLines_cons (l : List Char) (ls : List (List Char)) :
    joinLines (l :: ls) = if ls = [] then l else l ++ '\n' :: joinLines ls := by
  cases ls <;> rfl

theorem joinLines_eq (ls : List (List Char)) : joinLines ls = ['\n'].intercalate ls := by
  induction ls with
  | nil => rfl
  | cons l ls ih =>
      rw [joinLines_cons, ih]
      cases ls <;> simp [List.intercalate_cons_cons]

theorem solid_joinLines (ls : List (List Char)) : solid (joinLines ls) = ls.flatMap solid := by
  induction ls with
  | nil => rfl
  | cons l ls ih =>
      rw [joinLines_cons, List.flatMap_cons, ← ih]
      split
      · simp [*, joinLines, solid]
      · rw [solid_append, solid_cons_of_blank (by decide)]

theorem flatMap_solid_trim (ls : List (List Char)) :
    ((ls.map trim).filter (· ≠ [])).flatMap solid = ls.flatMap solid := by
  induction ls with
  | nil => rfl
  | cons l ls ih =>
      rw [List.map_cons, List.flatMap_cons, ← solid_trim l, ← ih, List.filter_cons]
      split
      · rw [List.flatMap_cons]
      · rename_i none
        have empty : trim l = [] := by simpa using none
        rw [empty]
        rfl

theorem solid_heldLines (s : List Char) : (heldLines s).flatMap solid = solid s := by
  calc (heldLines s).flatMap solid = (pieces '\n' s).flatMap solid := flatMap_solid_trim _
    _ = solid (joinLines (pieces '\n' s)) := (solid_joinLines _).symm
    _ = solid s := by rw [joinLines_eq, intercalate_pieces]

theorem blank_indent (n : Nat) : ∀ c ∈ List.replicate n ' ', isBlank c = true := by
  intro c member
  rw [List.eq_of_mem_replicate member]
  decide

theorem solid_indentFrom (level : Nat) (ls : List (List Char)) :
    (indentFrom level ls).flatMap solid = ls.flatMap solid := by
  induction ls generalizing level with
  | nil => rfl
  | cons l ls ih =>
      rw [indentFrom_cons, List.flatMap_cons, List.flatMap_cons, ih, solid_append, solid_blanks (blank_indent _)]
      rfl

theorem solid_markupText (s : List Char) : solid (markupText s) = solid s := by
  rw [markupText]
  split
  · rw [solid_joinLines, solid_indentFrom, markupLines_eq, solid_heldLines, solid_spread]
  · rfl

/-! Lines. -/

theorem trim_blanks (blank : ∀ c ∈ g, isBlank c = true) (s : List Char) : trim (g ++ s) = trim s := by
  rw [trim, trimStart_blanks blank, ← trim]

/-- White space behind a text that has none at its ends is trimmed. -/
theorem trim_append_blanks (first : s.head?.any isBlank = false) (last : s.getLast?.any isBlank = false) (some : s ≠ [])
    (blank : ∀ c ∈ g, isBlank c = true) : trim (s ++ g) = s := by
  have starts : trimStart (s ++ g) = s ++ g := by
    cases s with
    | nil => exact absurd rfl some
    | cons c s => exact List.dropWhile_cons_of_neg (Bool.eq_false_iff.mp first)
  have none : trimEnd g = [] := by
    have turned : g.reverse.dropWhile isBlank = [] := by simpa using blank
    rw [trimEnd, turned, List.reverse_nil]
  rw [trim, starts, trimEnd_append last, none, List.append_nil]

theorem trim_eq_self (first : s.head?.any isBlank = false) (last : s.getLast?.any isBlank = false) (some : s ≠ []) :
    trim s = s := by
  have whole := trim_append_blanks first last some (List.forall_mem_nil _)
  rwa [List.append_nil] at whole

theorem trim_ends (s : List Char) : (trim s).head?.any isBlank = false ∧ (trim s).getLast?.any isBlank = false := by
  constructor
  · cases first : (trim s).head? with
    | none => rfl
    | some c => exact head?_trim first
  · cases last : (trim s).getLast? with
    | none => rfl
    | some c => exact getLast?_trim last

theorem trim_trim (s : List Char) : trim (trim s) = trim s := by
  by_cases some : trim s = []
  · rw [some]
    rfl
  · exact trim_eq_self (trim_ends s).1 (trim_ends s).2 some

theorem trim_isInfix (s : List Char) : trim s <:+: s :=
  (trimEnd_initial _).isInfix.trans (List.dropWhile_suffix isBlank).isInfix

theorem heldLines_append_newline (s t : List Char) : heldLines (s ++ '\n' :: t) = heldLines s ++ heldLines t := by
  rw [heldLines, pieces_append_sep, List.map_append, List.filter_append]
  rfl

theorem heldLines_blanks (blank : ∀ c ∈ g, isBlank c = true) (s : List Char) : heldLines (g ++ s) = heldLines s := by
  induction g with
  | nil => rfl
  | cons c g ih =>
      obtain ⟨first, others⟩ := List.forall_mem_cons.mp blank
      rw [← ih others, List.cons_append]
      by_cases feed : c = '\n'
      · rw [feed]
        exact heldLines_append_newline [] (g ++ s)
      · obtain ⟨p, ps, split, whole⟩ := pieces_cons_of_ne feed (g ++ s)
        have lead : trim (c :: p) = trim p := trim_blanks (g := [c]) (by simpa using first) p
        rw [heldLines, heldLines, split, whole, List.map_cons, List.map_cons, lead]

theorem heldLines_trimStart (s : List Char) : heldLines (trimStart s) = heldLines s := by
  obtain ⟨g, blank, split⟩ := trimStart_split s
  conv_rhs => rw [split, heldLines_blanks blank]

theorem markupLines_blanks (blank : ∀ c ∈ g, isBlank c = true) (s : List Char) :
    markupLines (g ++ s) = markupLines s := by
  rw [markupLines_eq, spread_blanks blank, heldLines_blanks blank, markupLines_eq]

/-- A text without breaks is left as it is, and what follows it matters only where it ends in a tag. -/
theorem Unbroken.spread_append {t : List Char} (whole : Unbroken t) (some : t ≠ [])
    (last : t.getLast?.any isBlank = false) (s : List Char) : spread (t ++ s) =
      t ++ if t.getLast? = .some '>' ∧ TagNext s then '\n' :: trimStart (spread s) else spread s := by
  induction t with
  | nil => exact absurd rfl some
  | cons c t ih =>
      by_cases more : t = []
      · subst more
        rw [List.singleton_append, spread_cons]
        simp
      · have same : (c :: t).getLast? = t.getLast? := List.getLast?_cons_of_ne_nil more
        rw [same] at last ⊢
        have later := ih (fun g blank inside => whole g blank (List.infix_cons inside)) more last
        have none : ¬ (c = '>' ∧ TagNext (t ++ s)) := by
          rintro ⟨rfl, next⟩
          rw [tagNext_append (solid_ne_nil more last)] at next
          obtain ⟨g, r, blank, rfl⟩ := tagNext_iff.mp next
          exact whole g blank ⟨[], r, by simp⟩
        rw [List.cons_append, spread_cons, if_neg none, later]
        rfl

namespace IsLine

theorem ends (h : IsLine l) : l.head?.any isBlank = false ∧ l.getLast?.any isBlank = false := by
  rw [← h.trimmed]
  exact trim_ends l

theorem heldLines_single (h : IsLine l) (blank : ∀ c ∈ g, isBlank c = true) (single : '\n' ∉ g) :
    heldLines (l ++ g) = [l] := by
  have one : '\n' ∉ l ++ g := fun member => (List.mem_append.mp member).elim h.single single
  rw [heldLines, pieces_of_not_mem one, List.map_singleton, trim_append_blanks h.ends.1 h.ends.2 h.some blank]
  simp [h.some]

theorem heldLines_append (h : IsLine l) (blank : ∀ c ∈ g, isBlank c = true) : heldLines (l ++ g) = [l] := by
  by_cases feed : '\n' ∈ g
  · obtain ⟨g₁, g₂, rfl, single⟩ := List.eq_append_cons_of_mem feed
    simp only [List.forall_mem_append, List.forall_mem_cons] at blank
    have none : heldLines g₂ = [] := by
      have whole := heldLines_blanks blank.2.2 []
      rwa [List.append_nil] at whole
    rw [← List.append_assoc, heldLines_append_newline, h.heldLines_single blank.1 single, none, List.append_nil]
  · exact h.heldLines_single blank feed

theorem spread_append (h : IsLine l) (s : List Char) : spread (l ++ s) =
    l ++ if l.getLast? = .some '>' ∧ TagNext s then '\n' :: trimStart (spread s) else spread s :=
  h.unbroken.spread_append h.some h.ends.2 s

theorem heldLines_self (h : IsLine l) : heldLines l = [l] := by
  have whole := h.heldLines_append (List.forall_mem_nil _)
  rwa [List.append_nil] at whole

theorem markupLines_append_blanks (h : IsLine l) (blank : ∀ c ∈ g, isBlank c = true) : markupLines (l ++ g) = [l] := by
  have none : ¬ TagNext g := by
    rw [tagNext_iff_solid, solid_blanks blank]
    nofun
  have same := spread_blanks blank []
  rw [List.append_nil] at same
  rw [markupLines_eq, h.spread_append, if_neg fun next => none next.2, same]
  exact (congrArg heldLines (congrArg (l ++ ·) (List.append_nil g))).trans (h.heldLines_append blank)

theorem markupLines_append_tag (h : IsLine l) (close : l.getLast? = .some '>') (next : TagNext s) :
    markupLines (l ++ s) = l :: markupLines s := by
  rw [markupLines_eq, h.spread_append, if_pos ⟨close, next⟩, heldLines_append_newline, h.heldLines_self,
    heldLines_trimStart]
  rfl

theorem markupLines_append_newline (h : IsLine l) (s : List Char) :
    markupLines (l ++ '\n' :: s) = l :: markupLines s := by
  have feed : spread ('\n' :: s) = '\n' :: spread s := spread_of_ne (by decide) s
  have blank : markupLines (['\n'] ++ s) = markupLines s :=
    markupLines_blanks (List.forall_mem_singleton.mpr (by decide)) s
  by_cases boundary : l.getLast? = .some '>' ∧ TagNext ('\n' :: s)
  · rw [h.markupLines_append_tag boundary.1 boundary.2]
    exact congrArg (l :: ·) blank
  · rw [markupLines_eq, h.spread_append, if_neg boundary, feed, heldLines_append_newline, h.heldLines_self]
    rfl

end IsLine

/-! Text laid out. -/

theorem unbroken_or_newline (blank : ∀ c ∈ g, isBlank c = true) (h : '>' :: (g ++ ['<']) <:+: spread s) : '\n' ∈ g := by
  induction s with
  | nil => cases List.infix_nil.mp h
  | cons c s ih =>
      rw [spread_cons] at h
      rcases List.infix_cons_iff.mp h with here | later
      · obtain ⟨rfl, rest⟩ := List.cons_prefix_cons.mp here
        split at rest
        · cases g with
          | nil => exact absurd (List.cons_prefix_cons.mp rest).1 (by decide)
          | cons d g =>
            rw [(List.cons_prefix_cons.mp rest).1]
            exact List.mem_cons_self
        · rename_i none
          obtain ⟨r, same⟩ := rest
          have next : TagNext (spread s) := tagNext_iff.mpr ⟨g, r, blank, by rw [← same]; simp⟩
          rw [tagNext_iff_solid, solid_spread, ← tagNext_iff_solid] at next
          exact absurd ⟨rfl, next⟩ none
      · split at later
        · rcases List.infix_cons_iff.mp later with here | later
          · exact absurd (List.cons_prefix_cons.mp here).1 (by decide)
          · exact ih (later.trans (List.dropWhile_suffix isBlank).isInfix)
        · exact ih later

theorem isLine_of_mem (h : l ∈ markupLines s) : IsLine l := by
  rw [markupLines_eq, heldLines, List.mem_filter, List.mem_map] at h
  obtain ⟨⟨p, member, rfl⟩, some⟩ := h
  have single : '\n' ∉ trim p := fun feed => not_mem_of_mem_pieces member ((trim_sublist p).subset feed)
  refine ⟨by simpa using some, trim_trim p, single, fun g blank inside => single ?_⟩
  have feed := unbroken_or_newline blank (inside.trans ((trim_isInfix p).trans (infix_of_mem_pieces member)))
  exact inside.subset (List.mem_cons_of_mem _ (List.mem_append_left _ feed))

/-- The lines of a text laid out are those it was laid out in. -/
theorem markupLines_laidOut {ls : List (List Char)} (lines : ∀ l ∈ ls, IsLine l) (level : Nat) :
    markupLines (joinLines (indentFrom level ls)) = ls := by
  induction ls generalizing level with
  | nil => rfl
  | cons l ls ih =>
      obtain ⟨first, others⟩ := List.forall_mem_cons.mp lines
      rw [indentFrom_cons]
      cases ls with
      | nil =>
          have alone := first.markupLines_append_blanks (List.forall_mem_nil _)
          rw [List.append_nil] at alone
          exact (markupLines_blanks (blank_indent _) l).trans alone
      | cons l' ls =>
          have rest := ih others (levelAfter level l)
          rw [joinLines_cons, if_neg (by rw [indentFrom_cons]; exact List.cons_ne_nil _ _), List.append_assoc,
            markupLines_blanks (blank_indent _), first.markupLines_append_newline, rest]

theorem markupText_markupText (s : List Char) : markupText (markupText s) = markupText s := by
  by_cases starts : (trim s).head? = some '<'
  · have again : (trim (markupText s)).head? = some '<' := by
      rw [head?_trim_eq, solid_markupText, ← head?_trim_eq, starts]
    have laidOut : markupText s = joinLines (indentFrom 0 (markupLines s)) := if_pos starts
    have lines : markupLines (markupText s) = markupLines s := by
      rw [laidOut, markupLines_laidOut fun l => isLine_of_mem]
    rw [markupText, if_pos again, lines, laidOut]
  · have same : markupText s = s := if_neg starts
    rw [same, same]

/-- Whatever the text, only white space is taken away and put in, and a second time nothing is. -/
theorem markup_keeps_and_settles (s : String) :
    (markup s).toList.filter (!isBlank ·) = s.toList.filter (!isBlank ·) ∧ markup (markup s) = markup s := by
  constructor
  · rw [markup, String.toList_ofList]
    exact solid_markupText s.toList
  · rw [markup, markup, String.toList_ofList, markupText_markupText]

end

end ExportDiff.Pretty
