/- The key of a path keeps its extension, so paths of one key are read alike unless an extension comes to
light only in the key. -/
import ExportDiff.Noise.Content
import ExportDiff.Proofs.Noise.PathKey
import ExportDiff.Proofs.Text.Bar

namespace ExportDiff.Noise
open Artifact Text

/-- A dot and small letters behind it. -/
def IsExtension (u : List Char) : Prop := ∃ e, u = '.' :: e ∧ e ≠ [] ∧ ∀ c ∈ e, c.isLower = true

/-- Whatever the rule takes has a mark that no extension has, and ends in a digit if there is a dot in it. -/
def Rule.SparesExtensions (r : Rule) : Prop :=
  ∀ ps ∈ r.pattern.alternatives, ∀ t, Spells ps t →
    ('_' ∈ t ∨ '(' ∈ t) ∧ ('.' ∈ t → ∃ a c, t = a ++ [c] ∧ isDigit c = true)

theorem spares_of_check {r : Rule} (check : (r.pattern.alternatives.all fun ps =>
    (ps.any (Piece.needs '_') || ps.any (Piece.needs '(')) && ps.all (Piece.avoids '.')) = true) :
    r.SparesExtensions := by
  intro ps member t spelled
  have here := List.all_eq_true.mp check ps member
  rw [Bool.and_eq_true, Bool.or_eq_true] at here
  exact ⟨here.1.imp spelled.needs spelled.needs, fun dot => absurd dot (spelled.avoids here.2)⟩

theorem spares_version : versionRule.SparesExtensions := by
  intro ps member t spelled
  rw [List.mem_singleton.mp member] at spelled
  refine ⟨.inl (spelled.needs (by decide)), fun _ => ?_⟩
  have pieces : versionPieces = versionPieces.dropLast ++ [.exactly 4 isDigit] := rfl
  rw [pieces] at spelled
  obtain ⟨a, b, rfl, takes⟩ := spelled.concat
  cases takes with
  | exactly four digits =>
      have some : b ≠ [] := List.ne_nil_of_length_eq_add_one four
      refine ⟨a ++ b.dropLast, b.getLast some, ?_, digits _ (List.getLast_mem some)⟩
      rw [List.append_assoc, List.dropLast_append_getLast]

theorem rules_spare : ∀ r ∈ idRules ++ pathRules, r.SparesExtensions := by
  have dotless : (copyRule :: idRules).all (fun r => r.pattern.alternatives.all fun ps =>
      (ps.any (Piece.needs '_') || ps.any (Piece.needs '(')) && ps.all (Piece.avoids '.')) = true := by
    decide
  obtain ⟨copy, ids⟩ := List.forall_mem_cons.mp (List.all_eq_true.mp dotless)
  rw [List.forall_mem_append, pathRules_eq, List.forall_mem_cons, List.forall_mem_singleton]
  exact ⟨fun r id => spares_of_check (ids r id), spares_version, spares_of_check copy⟩

theorem not_inRanges_of_isLower {ranges : List (Nat × Nat)}
    (apart : ranges.all (fun d => d.2.blt 0x61 || Nat.blt 0x7A d.1) = true) {c : Char} (lower : c.isLower = true) :
    inRanges ranges c = false := by
  rw [Bool.eq_false_iff]
  intro member
  obtain ⟨d, hd, inside⟩ := List.any_eq_true.mp member
  obtain ⟨below, above⟩ : d.1 ≤ c.toNat ∧ c.toNat ≤ d.2 := by simpa using inside
  have outside : d.2 < 0x61 ∨ 0x7A < d.1 := by simpa using List.all_eq_true.mp apart d hd
  obtain ⟨first, last⟩ := Bool.and_eq_true_iff.mp lower
  have low : 0x61 ≤ c.toNat := of_decide_eq_true first
  have high : c.toNat ≤ 0x7A := of_decide_eq_true last
  omega

namespace IsExtension
variable {u s : List Char}

theorem mem (hu : IsExtension u) {c : Char} (hc : c ∈ u) : c = '.' ∨ c.isLower = true := by
  obtain ⟨e, rfl, _, lower⟩ := hu
  exact (List.mem_cons.mp hc).imp_right (lower c)

theorem ne_nil (hu : IsExtension u) : u ≠ [] := by
  obtain ⟨e, rfl, _⟩ := hu
  exact List.cons_ne_nil _ _

theorem not_mem (hu : IsExtension u) {c : Char} (dot : c ≠ '.') (lower : c.isLower = false) : c ∉ u :=
  fun member => (hu.mem member).elim dot fun letter => Bool.false_ne_true (lower.symm.trans letter)

theorem small (hu : IsExtension u) : ∀ c ∈ u, Small c := by
  intro c hc
  rcases hu.mem hc with rfl | lower
  · decide
  · exact small_of_isLower lower

theorem not_isBlank (hu : IsExtension u) : ∀ c ∈ u, isBlank c = false := by
  intro c hc
  rcases hu.mem hc with rfl | lower
  · decide
  · exact not_inRanges_of_isLower (by decide) lower

theorem not_isDigit (hu : IsExtension u) : ∀ c ∈ u, isDigit c = false := by
  intro c hc
  rcases hu.mem hc with rfl | lower
  · decide
  · exact not_inRanges_of_isLower (by decide) lower

theorem eq_of_suffix {v : List Char} (hu : IsExtension u) (hv : IsExtension v) (h : u <:+ v) : u = v := by
  obtain ⟨e, rfl, _⟩ := hu
  obtain ⟨f, rfl, _, lower⟩ := hv
  refine (List.suffix_cons_iff.mp h).resolve_right fun later => ?_
  exact absurd (lower '.' (later.subset List.mem_cons_self)) (by decide)

/-- A text has one extension at most, which begins at its last dot. -/
theorem unique {v : List Char} (hu : IsExtension u) (hv : IsExtension v) (h : u <:+ s) (h' : v <:+ s) :
    u = v :=
  (List.suffix_or_suffix_of_suffix h h').elim (hu.eq_of_suffix hv) fun back => (hv.eq_of_suffix hu back).symm

theorem suffix_apply (hu : IsExtension u) {r : Rule} (spares : r.SparesExtensions) (h : u <:+ s) :
    u <:+ r.apply s := by
  obtain ⟨a, rfl⟩ := h
  refine Pattern.suffix_replaceFrom _ (fun v suffix before => ?_) (fun ps member t spelled y some start reach => ?_)
    none a
  · -- No mark stands in an extension, so nothing in it is taken.
    cases found : r.pattern.matchAt before v with
    | none => rfl
    | some m =>
        obtain ⟨ps, member, t, split, _, spelled⟩ := Pattern.matchAt_of found
        have inside {c : Char} (hc : c ∈ t) : c ∈ u := suffix.subset (split ▸ List.mem_append_left _ hc)
        rcases (spares ps member t spelled).1 with mark | mark
        · exact absurd (inside mark) (hu.not_mem (by decide) (by decide))
        · exact absurd (inside mark) (hu.not_mem (by decide) (by decide))
  · -- What reaches into it takes its dot, and so ends in a digit, which the extension does not have.
    have dot : '.' ∈ t := by
      obtain ⟨e, rfl, _⟩ := hu
      cases y with
      | nil => exact absurd rfl some
      | cons d y =>
          obtain ⟨rfl, _⟩ := List.cons_prefix_cons.mp start
          exact reach.subset List.mem_cons_self
    obtain ⟨b, c, rfl, digit⟩ := (spares ps member t spelled).2 dot
    have last : y.getLast? = .some c := by
      obtain ⟨z, same⟩ := reach
      have := congrArg List.getLast? same
      rwa [List.getLast?_append, List.getLast?_concat, List.getLast?_eq_some_getLast some, Option.some_or,
        ← List.getLast?_eq_some_getLast some] at this
    have inside := start.subset (List.mem_of_getLast? last)
    exact Bool.false_ne_true ((hu.not_isDigit c inside).symm.trans digit)

theorem suffix_applyRules (hu : IsExtension u) {rules : List Rule} (spare : ∀ r ∈ rules, r.SparesExtensions)
    (h : u <:+ s) : u <:+ applyRules rules s := by
  induction rules generalizing s with
  | nil => exact h
  | cons r rules ih =>
      obtain ⟨here, rest⟩ := List.forall_mem_cons.mp spare
      exact ih rest (hu.suffix_apply here h)

theorem suffix_collapseSlashes (hu : IsExtension u) (h : u <:+ s) : u <:+ collapseSlashes s := by
  have slash : '/' ∉ u := hu.not_mem (by decide) (by decide)
  obtain ⟨a, rfl⟩ := h
  rw [collapseSlashes_append (fun first => slash (List.mem_of_head? first)), collapseSlashes_eq_self slash]
  exact List.suffix_append _ u

theorem suffix_lower (hu : IsExtension u) (h : u <:+ s) : u <:+ lower s := by
  obtain ⟨a, rfl⟩ := h
  exact suffix_lowerFrom hu.small false a

theorem suffix_trim (hu : IsExtension u) (h : u <:+ s) : u <:+ trim s := by
  obtain ⟨a, rfl⟩ := h
  have first : u.head?.any isBlank = false := by
    cases first : u.head? with
    | none => rfl
    | some c => exact hu.not_isBlank c (List.mem_of_head? first)
  have last : (trimStart a ++ u).getLast?.any isBlank = false := by
    rw [List.getLast?_append, List.getLast?_eq_some_getLast hu.ne_nil]
    exact hu.not_isBlank _ (List.getLast_mem hu.ne_nil)
  have none : trimEnd [] = [] := rfl
  have stays := trimEnd_append last []
  rw [List.append_nil, none, List.append_nil] at stays
  rw [trim, trimStart_append first, stays]
  exact List.suffix_append _ u

theorem suffix_keyPass (hu : IsExtension u) (h : u <:+ lower s) : u <:+ keyPass s := by
  obtain ⟨ids, paths⟩ := List.forall_mem_append.mp rules_spare
  exact hu.suffix_trim (hu.suffix_lower (hu.suffix_collapseSlashes
    (hu.suffix_applyRules paths (hu.suffix_applyRules ids h))))

theorem suffix_settle (hu : IsExtension u) (h : u <:+ lower s) : u <:+ settle s := by
  have pass := hu.suffix_keyPass h
  induction s using settle.induct with
  | case1 s lighter ih =>
      rw [settle, if_pos lighter]
      exact ih (hu.suffix_lower pass) (hu.suffix_keyPass (hu.suffix_lower pass))
  | case2 s heavy => rwa [settle, if_neg heavy]

theorem suffix_pathKey (hu : IsExtension u) {path : String} (h : u <:+ lower path.toList) :
    u <:+ lower (pathKey path).toList := by
  rw [pathKey, String.toList_ofList]
  exact hu.suffix_lower (hu.suffix_settle (hu.suffix_lower (hu.suffix_keyPass h)))

end IsExtension

def xmlExtensions : List String := [".xml", ".xsl", ".xslt", ".wsdl", ".xsd", ".jca"]

theorem isXml_iff_suffix {path : String} :
    isXml path = true ↔ ∃ t ∈ xmlExtensions, t.toList <:+ lower path.toList := by
  rw [isXml, endsIn, List.any_eq_true, lowercase, String.toList_ofList]
  simp only [List.isSuffixOf_iff_suffix]
  rfl

theorem isExtension_of_xml {t : String} (ht : t ∈ xmlExtensions) : IsExtension t.toList := by
  have check : ∀ t ∈ xmlExtensions, t.toList = '.' :: t.toList.tail ∧ t.toList.tail ≠ [] ∧
      t.toList.tail.all Char.isLower = true := by decide
  obtain ⟨dot, some, letters⟩ := check t ht
  exact ⟨t.toList.tail, dot, some, List.all_eq_true.mp letters⟩

/-- In lower case the path ends in a dot and letters behind it. -/
def HasExtension (path : String) : Prop := ∃ u, IsExtension u ∧ u <:+ lower path.toList

/-- A path is one of XML exactly when its key is and the extension was there from the start. -/
theorem isXml_iff_pathKey (path : String) :
    isXml path = true ↔ isXml (pathKey path) = true ∧ HasExtension path := by
  rw [isXml_iff_suffix, isXml_iff_suffix]
  constructor
  · rintro ⟨t, ht, ends⟩
    have extension := isExtension_of_xml ht
    exact ⟨⟨t, ht, extension.suffix_pathKey ends⟩, t.toList, extension, ends⟩
  · rintro ⟨⟨t, ht, ends⟩, u, extension, kept⟩
    refine ⟨t, ht, ?_⟩
    rwa [(isExtension_of_xml ht).unique extension ends (extension.suffix_pathKey kept)]

/-- White space is noise in XML only, so that a content tells in which of the two ways it is read. -/
theorem bareContent_eq_iff {p q : String} :
    (∀ content, bareContent content p = bareContent content q) ↔ (isXml p = true ↔ isXml q = true) := by
  have differ : bareXml " " ≠ String.ofList (applyRules idRules " ".toList) := by decide
  constructor
  · intro same
    have blank := same " "
    rw [bareContent, bareContent] at blank
    by_cases xml : isXml p = true <;> by_cases xml' : isXml q = true
    · exact iff_of_true xml xml'
    · rw [if_pos xml, if_neg xml'] at blank
      exact absurd blank differ
    · rw [if_neg xml, if_pos xml'] at blank
      exact absurd blank.symm differ
    · exact iff_of_false xml xml'
  · intro same content
    rw [bareContent, bareContent, Bool.eq_iff_iff.mpr same]

/-- Paths of one key are read alike unless the key is one of XML and only one of them had that extension
already. -/
theorem bareContent_of_sameKey {p q : String} (same : pathKey p = pathKey q) :
    (∀ content, bareContent content p = bareContent content q) ↔
      (isXml (pathKey p) = true → (HasExtension p ↔ HasExtension q)) := by
  rw [bareContent_eq_iff, isXml_iff_pathKey p, isXml_iff_pathKey q, ← same]
  exact and_congr_right_iff

/-- Case and separators do not touch an extension. -/
theorem bareContent_otherCase :
    pathKey "maps/order.xsl" = pathKey "Maps//Order.XSL" ∧
      bareContent "<map  id=\"1\"/>" "maps/order.xsl" = bareContent "<map  id=\"1\"/>" "Maps//Order.XSL" := by
  have same : pathKey "maps/order.xsl" = pathKey "Maps//Order.XSL" := by decide +kernel
  have extension : IsExtension ".xsl".toList := isExtension_of_xml (by decide)
  have left : HasExtension "maps/order.xsl" := ⟨_, extension, by decide⟩
  have right : HasExtension "Maps//Order.XSL" := ⟨_, extension, by decide⟩
  exact ⟨same, (bareContent_of_sameKey same).mpr (fun _ => iff_of_true left right) _⟩

/-- A numbered copy has the key of the mapping, but its path does not end in the extension. -/
theorem bareContent_numberedCopy :
    pathKey "maps/order.xsl" = pathKey "maps/order.xsl (2)" ∧
      bareContent "<map  id=\"1\"/>" "maps/order.xsl" ≠ bareContent "<map  id=\"1\"/>" "maps/order.xsl (2)" := by
  decide +kernel

end ExportDiff.Noise
