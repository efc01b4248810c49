/- Identifiers are replaced locally: none reaches across a character that can be no part of one, so the pieces of a
text between such characters are replaced apart, and the characters stay where they are. -/
import ExportDiff.Proofs.Noise.Identifier
import ExportDiff.Proofs.Text.Bar
import ExportDiff.Proofs.Text.Gaps
import ExportDiff.Text.Lines

namespace ExportDiff.Noise
open Artifact Text

/-- No ASCII letter or digit, no digit of another script, no underscore and no dash. -/
def isSeparator (c : Char) : Bool := !(c.isAlphanum || isDigit c || c == '_' || c == '-')

section
variable {c : Char} {k : Keyword}

theorem isSeparator_iff :
    isSeparator c = true ↔ c.isAlphanum = false ∧ isDigit c = false ∧ c ≠ '_' ∧ c ≠ '-' := by
  simp [isSeparator, and_assoc]

theorem isAlphanum_of_isLower (h : c.isLower = true) : c.isAlphanum = true := by
  have kinds : c.isAlphanum = (c.isUpper || c.isLower || c.isDigit) := rfl
  rw [kinds, h, Bool.or_true, Bool.true_or]

theorem isAlphanum_of_isHex (h : isHex c = true) : c.isAlphanum = true := by
  simp only [isHex, Bool.or_eq_true, Bool.and_eq_true, decide_eq_true_eq] at h
  rcases h with ⟨low, high⟩ | ⟨low, high⟩
  · have small : c.isLower = true :=
      Bool.and_eq_true_iff.mpr ⟨decide_eq_true low, decide_eq_true (UInt32.le_trans high (by decide))⟩
    exact isAlphanum_of_isLower small
  · have digit : c.isDigit = true := by
      rw [Char.isDigit, Bool.and_eq_true, decide_eq_true_iff, decide_eq_true_iff]
      exact ⟨low, high⟩
    rw [Char.isAlphanum, digit, Bool.or_true]

theorem not_inRun_of_separator (h : isSeparator c = true) (hk : k ∈ keywords) : k.inRun c = false := by
  obtain ⟨alphanum, digit, _, dash⟩ := isSeparator_iff.mp h
  have hex : isHex c = false := by
    rw [Bool.eq_false_iff]
    exact fun hex => Bool.false_ne_true (alphanum.symm.trans (isAlphanum_of_isHex hex))
  rcases inRun_classes k hk with same | same | same
  · rw [same, digit]
  · rw [same, isHexOrDash, hex, Bool.false_or, beq_eq_false_iff_ne]
    exact dash
  · rw [same, hex]

theorem separator_not_mem_chars (h : isSeparator c = true) (hk : k.Lawful) : c ∉ k.chars := by
  obtain ⟨alphanum, _, mark, _⟩ := isSeparator_iff.mp h
  obtain ⟨v, spelled, lower⟩ := hk.spelled
  rw [spelled, List.mem_append, List.mem_singleton, not_or]
  refine ⟨fun member => ?_, mark⟩
  exact Bool.false_ne_true (alphanum.symm.trans (isAlphanum_of_isLower (lower c member)))

theorem bars_separator (h : isSeparator c = true) (hk : k ∈ keywords) : k.rule.pattern.bars c = true := by
  have lawful := keywords_lawful hk
  have word : (Piece.text k.word).avoids c = true := by
    refine List.all_eq_true.mpr fun d member => bne_iff_ne.mpr ?_
    rintro rfl
    exact separator_not_mem_chars h lawful member
  have run : (Piece.run k.inRun).avoids c = true := by rw [Piece.avoids, not_inRun_of_separator h hk, Bool.not_false]
  have some : matchPieces [.text k.word, .run k.inRun] [] = none :=
    matchPieces_text_eq_none fun empty => lawful.ne_nil (List.prefix_nil.mp empty)
  simp only [Pattern.bars, Keyword.rule, List.all_cons, List.all_nil, word, run, some, Option.isNone_none, Bool.and_self]

theorem notAfter_separator (h : isSeparator c = true) (hk : k ∈ keywords) : k.rule.pattern.notAfter c = false := by
  change k.notAfter c = false
  rcases notAfter_classes k hk with same | same
  · rw [same]
  · rw [same]
    exact (isSeparator_iff.mp h).1

theorem applyRules_parted {rules : List Rule}
    (parts : ∀ r ∈ rules, r.pattern.bars c = true ∧ r.pattern.notAfter c = false) (a b : List Char) :
    applyRules rules (a ++ c :: b) = applyRules rules a ++ c :: applyRules rules b := by
  induction rules generalizing a b with
  | nil => rfl
  | cons r rules ih =>
      obtain ⟨⟨bar, free⟩, later⟩ := List.forall_mem_cons.mp parts
      have here : r.apply (a ++ c :: b) = r.apply a ++ c :: r.apply b := Pattern.replaceAll_parted bar free _ a b
      rw [applyRules, List.foldl_cons, here]
      exact ih later _ _

theorem applyRules_separated (h : isSeparator c = true) (a b : List Char) :
    applyRules idRules (a ++ c :: b) = applyRules idRules a ++ c :: applyRules idRules b := by
  refine applyRules_parted ?_ a b
  rw [idRules_eq, List.forall_mem_map]
  exact fun k hk => ⟨bars_separator h hk, notAfter_separator h hk⟩

theorem mem_of_separator (h : isSeparator c = true) {s : List Char} (member : c ∈ applyRules idRules s) : c ∈ s := by
  refine (mem_applyRules idRules_tame member).resolve_right ?_
  rintro rfl
  exact absurd h (by decide)

end

section
variable {p : Char → Bool}

/-- A text is free of separators or made of two shorter ones with a separator between them. -/
theorem separated_induction (p : Char → Bool) {motive : List Char → Prop}
    (piece : ∀ s, (∀ c ∈ s, p c = false) → motive s)
    (joined : ∀ a c b, p c = true → motive a → motive b → motive (a ++ c :: b)) (s : List Char) : motive s := by
  induction size : s.length using Nat.strong_induction_on generalizing s with
  | _ n ih =>
      by_cases found : ∃ c ∈ s, p c = true
      · obtain ⟨c, member, sep⟩ := found
        obtain ⟨a, b, rfl⟩ := List.append_of_mem member
        rw [List.length_append, List.length_cons] at size
        exact joined a c b sep (ih a.length (by omega) a rfl) (ih b.length (by omega) b rfl)
      · refine piece s fun c member => ?_
        rw [Bool.eq_false_iff]
        exact fun sep => found ⟨c, member, sep⟩

theorem not_sep_applyRules (hp : ∀ c, p c = true → isSeparator c = true) {s : List Char} (h : ∀ c ∈ s, p c = false) :
    ∀ c ∈ applyRules idRules s, p c = false := by
  intro c member
  rw [Bool.eq_false_iff]
  intro sep
  have there := mem_of_separator (hp c sep) member
  exact Bool.false_ne_true ((h c there).symm.trans sep)

theorem splitOnP_applyRules (hp : ∀ c, p c = true → isSeparator c = true) (s : List Char) :
    (applyRules idRules s).splitOnP p = (s.splitOnP p).map (applyRules idRules) := by
  induction s using separated_induction p with
  | piece s free =>
      rw [List.splitOnP_eq_singleton free, List.splitOnP_eq_singleton (not_sep_applyRules hp free), List.map_singleton]
  | joined a c b sep left right =>
      rw [applyRules_separated (hp c sep), List.splitOnP_append_cons _ _ sep, List.splitOnP_append_cons _ _ sep, left,
        right, List.map_append]

theorem filter_applyRules (hp : ∀ c, p c = true → isSeparator c = true) (s : List Char) :
    (applyRules idRules s).filter p = s.filter p := by
  induction s using separated_induction p with
  | piece s free =>
      have none {t : List Char} (free : ∀ c ∈ t, p c = false) : t.filter p = [] :=
        List.filter_eq_nil_iff.mpr fun c member => Bool.eq_false_iff.mp (free c member)
      rw [none free, none (not_sep_applyRules hp free)]
  | joined a c b sep left right =>
      rw [applyRules_separated (hp c sep), List.filter_append, List.filter_append, List.filter_cons_of_pos sep,
        List.filter_cons_of_pos sep, left, right]

end

theorem isBlank_of_isLineBreak {c : Char} (h : isLineBreak c = true) : isBlank c = true := by
  simp only [isLineBreak, Bool.or_eq_true, Bool.and_eq_true, decide_eq_true_eq, beq_iff_eq] at h
  simp only [isBlank, inRanges, blankRanges, List.any_cons, List.any_nil, Bool.or_eq_true, Bool.and_eq_true,
    decide_eq_true_eq]
  omega

theorem isSeparator_of_isBlank {c : Char} (h : isBlank c = true) : isSeparator c = true := by
  have all : blanks.all isSeparator = true := by decide
  exact List.all_eq_true.mp all c (mem_blanks h)

/-- Quotes, and what stands between the parts of paths, fields and lists. -/
def marks : List Char := ['"', '\'', '/', '\\', '.', ',', ':', ';', '=', '|']

theorem isSeparator_marks : marks.all isSeparator = true := by decide

/-- Identifiers are replaced apart on the two sides of any character that can be no part of one, as blanks, line
breaks, quotes and separators are. So in a content that is not XML these stay where they are, and what stands
between them loses its identifiers as it would alone. -/
theorem identifiers_local :
    (∀ (a b : List Char) (c : Char), isSeparator c = true →
      applyRules idRules (a ++ c :: b) = applyRules idRules a ++ c :: applyRules idRules b) ∧
    (∀ c, isBlank c = true ∨ isLineBreak c = true ∨ c ∈ marks → isSeparator c = true) ∧
    ∀ (content path : String) (p : Char → Bool), isXml path = false → (∀ c, p c = true → isSeparator c = true) →
      (bareContent content path).toList.filter p = content.toList.filter p ∧
      (bareContent content path).toList.splitOnP p =
        (content.toList.splitOnP p).map fun s => (bareContent (String.ofList s) path).toList := by
  refine ⟨fun a b c h => applyRules_separated h a b, ?_, ?_⟩
  · rintro c (blank | breaks | mark)
    · exact isSeparator_of_isBlank blank
    · exact isSeparator_of_isBlank (isBlank_of_isLineBreak breaks)
    · exact List.all_eq_true.mp isSeparator_marks c mark
  · intro content path p plain hp
    simp only [toList_bareContent plain, String.toList_ofList]
    exact ⟨filter_applyRules hp _, splitOnP_applyRules hp _⟩

/-- Two references on two lines, with an identifier right before a separator and one right behind it. -/
def references : String := "\"itg_0f/res_1\",\n \"x/inbound_2é\""

theorem identifiers_local_references :
    isSeparator '/' = true ∧ isXml "refs.json" = false ∧
      applyRules idRules ("itg_0f".toList ++ '/' :: "res_1".toList) =
        applyRules idRules "itg_0f".toList ++ '/' :: applyRules idRules "res_1".toList ∧
      (bareContent references "refs.json").toList.filter isSeparator =
        references.toList.filter isSeparator ∧
      (bareContent references "refs.json").toList.splitOnP isLineBreak =
        (references.toList.splitOnP isLineBreak).map (fun s => (bareContent (String.ofList s) "refs.json").toList) ∧
      bareContent references "refs.json" = "\"itg_X/res_X\",\n \"x/inbound_Xé\"" := by
  obtain ⟨parts, separators, plainly⟩ := identifiers_local
  have slash : isSeparator '/' = true := separators '/' (.inr (.inr (by decide)))
  have plain : isXml "refs.json" = false := by decide
  have kept := (plainly references "refs.json" isSeparator plain fun _ => id).1
  have byLine := (plainly references "refs.json" isLineBreak plain fun c h => separators c (.inr (.inl h))).2
  exact ⟨slash, plain, parts _ _ _ slash, kept, byLine, by decide⟩

end ExportDiff.Noise
