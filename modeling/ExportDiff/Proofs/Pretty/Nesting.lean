/- A document laid out: each tag stands on a line of its own, indented by the number of elements that it is in, though
the layout has only the lines to go by and keeps no more than a level. -/
import ExportDiff.Proofs.Pretty.Markup
import ExportDiff.Proofs.Text.Pieces

namespace ExportDiff.Pretty
open Text

/-- White space between tags, or none. -/
structure Gap where
  chars : List Char
  blank : ∀ c ∈ chars, isBlank c = true

/-- Nothing ends a tag, a text or a line. -/
structure Flat (s : List Char) : Prop where
  less : '<' ∉ s
  greater : '>' ∉ s
  feed : '\n' ∉ s

/-- A name and attributes. -/
structure TagText where
  chars : List Char
  flat : Flat chars
  first : ∀ c ∈ ['/', '?', '!'], chars.head? ≠ some c
  last : chars.getLast? ≠ some '/'

/-- What an end tag repeats of its start tag, with the attributes or without them. -/
structure EndText where
  chars : List Char
  flat : Flat chars

/-- What stands in an element that has no elements in it. -/
structure LeafText where
  chars : List Char
  flat : Flat chars
  shown : ∃ c ∈ chars, isBlank c = false

mutual

/-- A tag that is closed in itself has a name: without one it would be an end tag. -/
inductive Element where
  | empty (tag : TagText) (named : tag.chars ≠ [])
  | leaf (tag : TagText) (text : LeafText) (close : EndText)
  | container (tag : TagText) (content : Content) (close : EndText)

/-- Elements, with a gap before each and one behind the last. -/
inductive Content where
  | none (gap : Gap)
  | cons (gap : Gap) (first : Element) (rest : Content)

end

def tagOf (s : List Char) : List Char := '<' :: (s ++ ['>'])

namespace TagText

def start (t : TagText) : List Char := tagOf t.chars

def closed (t : TagText) : List Char := tagOf (t.chars ++ ['/'])

end TagText

def EndText.tag (t : EndText) : List Char := tagOf ('/' :: t.chars)

def leafLine (tag : TagText) (text : LeafText) (close : EndText) : List Char := tag.start ++ (text.chars ++ close.tag)

mutual

def Element.text : Element → List Char
  | .empty tag _ => tag.closed
  | .leaf tag text close => leafLine tag text close
  | .container tag content close => tag.start ++ (content.text ++ close.tag)

def Content.text : Content → List Char
  | .none gap => gap.chars
  | .cons gap first rest => gap.chars ++ (first.text ++ rest.text)

end

/-- A line and the number of elements that it is in. -/
structure Row where
  depth : Nat
  line : List Char

def Row.text (r : Row) : List Char := List.replicate (2 * r.depth) ' ' ++ r.line

mutual

/-- A container has a row for each of its tags, around those of what is in it. -/
def Element.rows (depth : Nat) : Element → List Row
  | .empty tag _ => [⟨depth, tag.closed⟩]
  | .leaf tag text close => [⟨depth, leafLine tag text close⟩]
  | .container tag content close => ⟨depth, tag.start⟩ :: (content.rows (depth + 1) ++ [⟨depth, close.tag⟩])

def Content.rows (depth : Nat) : Content → List Row
  | .none _ => []
  | .cons _ first rest => first.rows depth ++ rest.rows depth

end

/-- No text comes before the next tag. -/
def Bare (s : List Char) : Prop := TagNext s ∨ ∀ c ∈ s, isBlank c = true

section
variable {g l s t : List Char}

/-! Tags as lines. -/

theorem tagNext_cons (s : List Char) : TagNext ('<' :: s) := rfl

theorem not_tagNext_of_not_mem (h : '<' ∉ s) : ¬ TagNext s := by
  intro next
  obtain ⟨g, r, -, rfl⟩ := tagNext_iff.mp next
  exact h (List.mem_append_right g List.mem_cons_self)

theorem unbroken_nil : Unbroken [] := fun _ _ inside => nomatch List.infix_nil.mp inside

/-- Where a text is broken, a tag follows one of its tags' ends. -/
theorem unbroken_split (inner : '>' ∉ s) (next : ¬ TagNext t) (rest : Unbroken t) : Unbroken (s ++ '>' :: t) := by
  intro g blank inside
  induction s with
  | nil =>
      rcases List.infix_cons_iff.mp inside with here | later
      · obtain ⟨r, same⟩ := (List.cons_prefix_cons.mp here).2
        exact next (tagNext_iff.mpr ⟨g, r, blank, by rw [← same]; simp⟩)
      · exact rest g blank later
  | cons c s ih =>
      rw [List.mem_cons, not_or] at inner
      rcases List.infix_cons_iff.mp inside with here | later
      · exact inner.1 (List.cons_prefix_cons.mp here).1
      · exact ih inner.2 later

theorem not_greater_mem_cons (h : Flat s) : '>' ∉ '<' :: s := by
  simp [h.greater]

theorem Flat.append (h : Flat s) (h' : Flat t) : Flat (s ++ t) := by
  constructor <;> simp [h.less, h'.less, h.greater, h'.greater, h.feed, h'.feed]

theorem flat_slash : Flat ['/'] := ⟨by decide, by decide, by decide⟩

theorem getLast?_tagOf (s : List Char) : (tagOf s).getLast? = some '>' := List.getLast?_concat (l := '<' :: s)

theorem trim_tagOf (s : List Char) : trim (tagOf s) = tagOf s := by
  have last : (tagOf s).getLast?.any isBlank = false := by
    rw [getLast?_tagOf]
    decide
  exact trim_eq_self rfl last (List.cons_ne_nil _ _)

theorem isLine_tagOf (h : Flat s) : IsLine (tagOf s) where
  some := List.cons_ne_nil _ _
  trimmed := trim_tagOf s
  single := by simp [tagOf, h.feed]
  unbroken := unbroken_split (not_greater_mem_cons h) (not_tagNext_of_not_mem List.not_mem_nil) unbroken_nil

/-- From end to end a leaf looks like one tag. -/
theorem leafLine_eq (tag : TagText) (text : LeafText) (close : EndText) : leafLine tag text close =
    tagOf (tag.chars ++ '>' :: (text.chars ++ '<' :: '/' :: close.chars)) := by
  simp [leafLine, TagText.start, EndText.tag, tagOf]

theorem LeafText.not_tagNext (t : LeafText) (s : List Char) : ¬ TagNext (t.chars ++ s) := by
  have some : solid t.chars ≠ [] := by
    obtain ⟨c, member, shown⟩ := t.shown
    exact List.ne_nil_of_mem (List.mem_filter.mpr ⟨member, by simp [shown]⟩)
  rw [tagNext_append some]
  exact not_tagNext_of_not_mem t.flat.less

theorem isLine_leafLine (tag : TagText) (text : LeafText) (close : EndText) : IsLine (leafLine tag text close) where
  some := List.cons_ne_nil _ _
  trimmed := by rw [leafLine_eq, trim_tagOf]
  single := by simp [leafLine_eq, tagOf, tag.flat.feed, text.flat.feed, close.flat.feed]
  unbroken := by
    -- The text keeps the start tag from the end tag, and nothing follows the end tag.
    have inner : '>' ∉ text.chars ++ '<' :: '/' :: close.chars := by simp [text.flat.greater, close.flat.greater]
    have behind : Unbroken (text.chars ++ close.tag) := by
      have whole := unbroken_split inner (not_tagNext_of_not_mem List.not_mem_nil) unbroken_nil
      simpa [EndText.tag, tagOf] using whole
    have whole := unbroken_split (not_greater_mem_cons tag.flat) (text.not_tagNext close.tag) behind
    simpa [leafLine, TagText.start, tagOf] using whole

/-! The lines of a document. -/

theorem markupLines_eq_nil (blank : ∀ c ∈ g, isBlank c = true) : markupLines g = [] := by
  have whole := markupLines_blanks blank []
  rwa [List.append_nil] at whole

theorem Bare.blanks (blank : ∀ c ∈ g, isBlank c = true) (h : Bare s) : Bare (g ++ s) := by
  rcases h with next | rest
  · left
    rwa [TagNext, trimStart_blanks blank]
  · exact .inr (List.forall_mem_append.mpr ⟨blank, rest⟩)

theorem IsLine.markupLines_append (h : IsLine l) (close : l.getLast? = .some '>') (next : Bare s) :
    markupLines (l ++ s) = l :: markupLines s := by
  rcases next with tag | blank
  · exact h.markupLines_append_tag close tag
  · rw [h.markupLines_append_blanks blank, markupLines_eq_nil blank]

theorem Element.bare_append (e : Element) (s : List Char) : Bare (e.text ++ s) := by
  left
  cases e <;> exact tagNext_cons _

theorem Content.bare_append (c : Content) (h : Bare s) : Bare (c.text ++ s) := by
  cases c with
  | none gap => exact h.blanks gap.blank
  | cons gap first rest =>
      rw [Content.text, List.append_assoc, List.append_assoc]
      exact (first.bare_append _).blanks gap.blank

mutual

/-- An element is broken into its rows, whatever the depth they are given. -/
theorem Element.markupLines_append {s : List Char} (depth : Nat) (h : Bare s) :
    (e : Element) → markupLines (e.text ++ s) = (e.rows depth).map Row.line ++ markupLines s
  | .empty tag _ => (isLine_tagOf (tag.flat.append flat_slash)).markupLines_append (getLast?_tagOf _) h
  | .leaf tag text close => (isLine_leafLine tag text close).markupLines_append (by rw [leafLine_eq, getLast?_tagOf]) h
  | .container tag content close => by
      have ends : Bare (close.tag ++ s) := .inl (tagNext_cons _)
      have first : markupLines (tag.start ++ (content.text ++ (close.tag ++ s))) =
          tag.start :: markupLines (content.text ++ (close.tag ++ s)) :=
        (isLine_tagOf tag.flat).markupLines_append (getLast?_tagOf _) (content.bare_append ends)
      have last : markupLines (close.tag ++ s) = close.tag :: markupLines s :=
        (isLine_tagOf (flat_slash.append close.flat)).markupLines_append (getLast?_tagOf _) h
      rw [Content.markupLines_append (depth + 1) ends content, last] at first
      simpa [Element.text, Element.rows] using first

theorem Content.markupLines_append {s : List Char} (depth : Nat) (h : Bare s) :
    (c : Content) → markupLines (c.text ++ s) = (c.rows depth).map Row.line ++ markupLines s
  | .none gap => markupLines_blanks gap.blank s
  | .cons gap first rest => by
      rw [Content.text, Content.rows, List.append_assoc, List.append_assoc, markupLines_blanks gap.blank,
        Element.markupLines_append depth (rest.bare_append h) first, Content.markupLines_append depth h rest,
        List.map_append, List.append_assoc]

end

/-! Levels. -/

theorem begins_iff {c : Char} : ['<', c].isPrefixOf ('<' :: s) = true ↔ s.head? = some c := by
  rw [List.isPrefixOf_iff_prefix, List.prefix_cons_inj, List.singleton_prefix_iff_head?_eq_some]

theorem closes_iff : "/>".toList.isSuffixOf (tagOf s) = true ↔ ('<' :: s).getLast? = some '/' := by
  have shared : ['/'] ++ ['>'] <:+ '<' :: s ++ ['>'] ↔ ['/'] <:+ '<' :: s := List.suffix_append_self_iff
  rw [List.isSuffixOf_iff_suffix, ← List.singleton_suffix_iff_getLast?_eq_some]
  exact shared

namespace TagText
variable (t : TagText) {c : Char}

/-- The text of a tag does not make it an end tag or a declaration. -/
theorem not_begins (special : c ∈ ['/', '?', '!']) (more : t.chars = [] → s.head? = some '>') :
    ['<', c].isPrefixOf ('<' :: (t.chars ++ s)) = false := by
  rw [Bool.eq_false_iff, Ne, begins_iff]
  intro begins
  cases chars : t.chars with
  | nil =>
      rw [chars, List.nil_append, more chars, Option.some.injEq] at begins
      subst begins
      exact absurd special (by decide)
  | cons d ds =>
      refine t.first c special ?_
      rwa [chars] at begins ⊢

theorem isEndTag_start (s : List Char) : isEndTag (t.start ++ s) = false := by
  rw [start, tagOf, List.cons_append, List.append_assoc]
  exact t.not_begins (by decide) fun _ => rfl

theorem isEndTag_closed (named : t.chars ≠ []) : isEndTag t.closed = false := by
  rw [closed, tagOf, List.append_assoc]
  exact t.not_begins (by decide) fun none => absurd none named

theorem not_closes : "/>".toList.isSuffixOf t.start = false := by
  rw [Bool.eq_false_iff, start, Ne, closes_iff]
  cases chars : t.chars with
  | nil => decide
  | cons d ds =>
      rw [List.getLast?_cons_of_ne_nil (List.cons_ne_nil _ _), ← chars]
      exact t.last

theorem opensElement_start : opensElement t.start = true := by
  have whole (c) (special : c ∈ ['/', '?', '!']) : ['<', c].isPrefixOf t.start = false :=
    t.not_begins special fun _ => rfl
  have tag : "<".toList.isPrefixOf t.start = true := rfl
  have noEnd : isEndTag t.start = false := whole '/' (by decide)
  have noInstruction : "<?".toList.isPrefixOf t.start = false := whole '?' (by decide)
  have noDeclaration : "<!".toList.isPrefixOf t.start = false := whole '!' (by decide)
  have alone : occursIn "</".toList t.start = false := by
    rw [Bool.eq_false_iff, Ne, occursIn_iff]
    intro inside
    rcases List.infix_cons_iff.mp inside with here | later
    · rw [← List.isPrefixOf_iff_prefix] at here
      exact Bool.false_ne_true ((whole '/' (by decide)).symm.trans here)
    · have less : '<' ∈ t.chars ++ ['>'] := later.subset List.mem_cons_self
      simp [t.flat.less] at less
  rw [opensElement, tag, noEnd, noInstruction, noDeclaration, t.not_closes, alone]
  rfl

theorem opensElement_closed : opensElement t.closed = false := by
  have closes : "/>".toList.isSuffixOf t.closed = true := by
    rw [closed, closes_iff]
    exact List.getLast?_concat (l := '<' :: t.chars)
  rw [opensElement, closes, Bool.not_true, Bool.and_false, Bool.false_and]

end TagText

theorem opensElement_of_isEndTag (h : isEndTag l = true) : opensElement l = false := by
  simp [opensElement, h]

theorem EndText.isEndTag_tag (t : EndText) : isEndTag t.tag = true := begins_iff.mpr rfl

theorem opensElement_leafLine (tag : TagText) (text : LeafText) (close : EndText) :
    opensElement (leafLine tag text close) = false := by
  have inside : occursIn "</".toList (leafLine tag text close) = true := by
    rw [occursIn_iff]
    exact ⟨tag.start ++ text.chars, close.chars ++ ['>'], by simp [leafLine, EndText.tag, tagOf]⟩
  rw [opensElement, inside, Bool.not_true, Bool.and_false]

theorem indentFrom_start (tag : TagText) (level : Nat) (ls : List (List Char)) :
    indentFrom level (tag.start :: ls) = Row.text ⟨level, tag.start⟩ :: indentFrom (level + 1) ls := by
  have noEnd := tag.isEndTag_start []
  rw [List.append_nil] at noEnd
  simp [indentFrom_cons, levelAfter, levelAt, noEnd, tag.opensElement_start, Row.text]

theorem indentFrom_whole (noEnd : isEndTag l = false) (noStart : opensElement l = false) (level : Nat)
    (ls : List (List Char)) : indentFrom level (l :: ls) = Row.text ⟨level, l⟩ :: indentFrom level ls := by
  simp [indentFrom_cons, levelAfter, levelAt, noEnd, noStart, Row.text]

theorem indentFrom_end (close : EndText) (level : Nat) (ls : List (List Char)) :
    indentFrom (level + 1) (close.tag :: ls) = Row.text ⟨level, close.tag⟩ :: indentFrom level ls := by
  simp [indentFrom_cons, levelAfter, levelAt, close.isEndTag_tag, opensElement_of_isEndTag, Row.text]

mutual

/-- Behind the rows of an element, which are indented by their depths, the level is what it was before them. -/
theorem Element.indentFrom_append (depth : Nat) (ls : List (List Char)) : (e : Element) →
    indentFrom depth ((e.rows depth).map Row.line ++ ls) = (e.rows depth).map Row.text ++ indentFrom depth ls
  | .empty tag named => indentFrom_whole (tag.isEndTag_closed named) tag.opensElement_closed depth ls
  | .leaf tag text close =>
      indentFrom_whole (tag.isEndTag_start _) (opensElement_leafLine tag text close) depth ls
  | .container tag content close => by
      -- The end tag stands a level further out than where the content leaves off, and so at that of the start tag.
      have inner := Content.indentFrom_append (depth + 1) (close.tag :: ls) content
      rw [indentFrom_end] at inner
      simp [Element.rows, indentFrom_start, inner]

theorem Content.indentFrom_append (depth : Nat) (ls : List (List Char)) : (c : Content) →
    indentFrom depth ((c.rows depth).map Row.line ++ ls) = (c.rows depth).map Row.text ++ indentFrom depth ls
  | .none _ => rfl
  | .cons _ first rest => by
      simp [Content.rows, Element.indentFrom_append depth _ first, Content.indentFrom_append depth ls rest]

end

/-! Documents. -/

theorem Element.rows_ne_nil (depth : Nat) (e : Element) : e.rows depth ≠ [] := by
  cases e <;> exact List.cons_ne_nil _ _

theorem markupText_document (before after : Gap) (e : Element) :
    markupText (before.chars ++ (e.text ++ after.chars)) = joinLines ((e.rows 0).map Row.text) := by
  have starts : (trim (before.chars ++ (e.text ++ after.chars))).head? = some '<' := by
    rw [head?_trim_eq, solid_append, solid_blanks before.blank, List.nil_append]
    cases e <;> rfl
  have lines := e.markupLines_append 0 (.inr after.blank)
  rw [markupLines_eq_nil after.blank] at lines
  rw [markupText, if_pos starts, markupLines_blanks before.blank, lines, e.indentFrom_append]
  exact congrArg joinLines (List.append_nil _)

/-- Whatever white space is around and between the tags, the lines are those of the document's rows, each indented by
two blanks for each element that it is in. -/
theorem markup_nests (before after : Gap) (e : Element) :
    stringPieces '\n' (markup (String.ofList (before.chars ++ (e.text ++ after.chars)))) =
      (e.rows 0).map fun r => String.ofList r.text := by
  have lines := e.markupLines_append 0 (.inr after.blank)
  have single : ∀ t ∈ (e.rows 0).map Row.text, '\n' ∉ t := by
    rw [List.forall_mem_map]
    intro r member
    have line : r.line ∈ markupLines (e.text ++ after.chars) := by
      rw [lines]
      exact List.mem_append_left _ (List.mem_map_of_mem member)
    simp [Row.text, (isLine_of_mem line).single]
  rw [stringPieces, markup, String.toList_ofList, String.toList_ofList, markupText_document, joinLines_eq,
    pieces_intercalate single (by simpa using e.rows_ne_nil 0), List.map_map]
  rfl

example : markup "<a> <b>text</b></a>" = "<a>\n  <b>text</b>\n</a>" := by decide

end

end ExportDiff.Pretty
