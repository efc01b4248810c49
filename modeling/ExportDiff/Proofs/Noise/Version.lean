/- Two versions of an artifact have one key, unless a keyword stands right before the version, whose rule takes
the first digits for an identifier. -/
import ExportDiff.Proofs.Noise.Identifier
import ExportDiff.Proofs.Text.Bar

namespace ExportDiff.Noise
open Text

/-- Two digits, two digits, and four, with dots between them. -/
def IsVersion (v : String) : Prop :=
  ∃ x y z, v.toList = x ++ '.' :: (y ++ '.' :: z) ∧ x.length = 2 ∧ y.length = 2 ∧ z.length = 4 ∧
    (x ++ y ++ z).all isDigit = true

theorem IsVersion.mem {v : String} (hv : IsVersion v) {c : Char} (hc : c ∈ v.toList) :
    c = '.' ∨ isDigit c = true := by
  obtain ⟨x, y, z, same, _, _, _, digits⟩ := hv
  have parts : c = '.' ∨ c ∈ x ++ y ++ z := by
    rw [same] at hc
    simp only [List.mem_append, List.mem_cons] at hc ⊢
    tauto
  exact parts.imp_right (List.all_eq_true.mp digits c)

theorem IsVersion.small {v : String} (hv : IsVersion v) : ∀ c ∈ v.toList, Small c := by
  intro c hc
  rcases hv.mem hc with rfl | digit
  · decide
  · exact small_of_isDigit digit

theorem IsVersion.unmarked {v : String} (hv : IsVersion v) : '_' ∉ v.toList := fun mark =>
  absurd (hv.mem mark) (by decide)

namespace Keyword

section
variable {e k : Keyword} {b m n s x : List Char}

/-- The name ends in the keyword, which may stand there. -/
def Closes (k : Keyword) (n : List Char) : Prop := ∃ x, n = x ++ k.chars ∧ x.getLast?.any k.notAfter = false

/-- What ends in an underscore and goes on as a keyword has the whole keyword already. -/
theorem Lawful.prefix_of_mark (he : e.Lawful) (hx : x.getLast? = some '_') (h : e.chars <+: x ++ s) :
    e.chars <+: x := by
  rcases List.prefix_or_prefix_of_prefix h (List.prefix_append x s) with whole | part
  · exact whole
  · obtain ⟨v, spelled, lower⟩ := he.spelled
    rw [spelled, List.prefix_concat_iff] at part
    rcases part with same | inside
    · rw [spelled, same]
    · exact absurd rfl (ne_mark (lower _ (inside.subset (List.mem_of_getLast? hx)))).1

/-- No match crosses the end of a name that the keyword does not close. -/
theorem Lawful.parts_of_name (he : e.Lawful) (hn : n.getLast? = some '_') (closes : ¬ e.Closes n)
    (s : List Char) : e.rule.pattern.PartsFrom none n s := by
  intro y x same some
  have last : x.getLast? = .some '_' := by
    rw [same, List.getLast?_append_of_ne_nil y some] at hn
    exact hn
  by_cases here : e.chars <+: x
  · obtain ⟨r, rfl⟩ := here
    rw [List.append_assoc, matchAt_chars, matchAt_chars]
    split
    · rfl
    · rename_i free
      have run : r ≠ [] := by
        rintro rfl
        rw [Option.or_none, Bool.not_eq_true] at free
        exact closes ⟨y, by rw [same, List.append_nil], free⟩
      rw [List.getLast?_append_of_ne_nil _ run] at last
      obtain ⟨r, rfl⟩ := List.getLast?_eq_some_iff.mp last
      have stop : [Piece.run e.inRun].all (Piece.avoids '_') = true := by
        simp [Piece.avoids, he.ends '_' List.mem_cons_self]
      rw [List.append_assoc, List.singleton_append, matchPieces_avoids stop, matchPieces_avoids stop]
      simp only [Option.map_map]
      rfl
  · rw [matchAt_elsewhere here, matchAt_elsewhere (mt (he.prefix_of_mark last) here)]

/-- No keyword begins in a text without underscores in front of what ends a name. -/
theorem Lawful.replaceFrom_unmarked (he : e.Lawful) (hm : '_' ∉ m) (hb : Ends b) (before : Option Char) :
    e.rule.pattern.replaceFrom e.rule.replacement.toList 0 before (m ++ b) = m ++ e.rule.apply b := by
  have unmatched : ∀ x, x ≠ [] → x <:+ m → ∀ before, e.rule.pattern.matchAt before (x ++ b) = none := by
    intro x _ suffix
    refine matchAt_elsewhere fun start => hm (suffix.subset ((he.prefix_of_ends hb start).subset ?_))
    obtain ⟨v, spelled, _⟩ := he.spelled
    rw [spelled]
    exact List.mem_append_right v List.mem_cons_self
  rw [Pattern.replaceFrom_unmatched unmatched, Pattern.replaceFrom_before (he.matchAt_ends hb)]
  rfl

theorem Lawful.apply_name (he : e.Lawful) (hn : n.getLast? = some '_') (closes : ¬ e.Closes n) (hm : '_' ∉ m)
    (hb : Ends b) : e.rule.apply (n ++ (m ++ b)) = e.rule.apply n ++ (m ++ e.rule.apply b) := by
  rw [Rule.apply, Pattern.replaceAll_partsFrom (he.parts_of_name hn closes _), he.replaceFrom_unmarked hm hb]
  rfl

theorem Lawful.getLast?_apply (he : e.Lawful) (hn : n.getLast? = some '_') :
    (e.rule.apply n).getLast? = some '_' := by
  obtain ⟨a, rfl⟩ := List.getLast?_eq_some_iff.mp hn
  have mark : e.inRun '_' = false := he.ends '_' List.mem_cons_self
  have spelled {t : List Char} {ps : List Piece} (member : ps ∈ e.rule.pattern.alternatives) (h : Spells ps t) :
      ∃ u, t = e.chars ++ u ∧ u ≠ [] ∧ ∀ c ∈ u, e.inRun c = true :=
    spells_keyword (List.mem_singleton.mp member ▸ h)
  have stays : ['_'] <:+ e.rule.apply (a ++ ['_']) := by
    -- What the rule takes ends in a character of the run, which the underscore is not.
    refine Pattern.suffix_replaceFrom _ (fun v suffix before => ?_) (fun ps member t h y some start reach => ?_)
      none a
    · cases found : e.rule.pattern.matchAt before v with
      | none => rfl
      | some w =>
          obtain ⟨ps, member, t, split, _, h⟩ := Pattern.matchAt_of found
          obtain ⟨u, rfl, some, run⟩ := spelled member h
          obtain ⟨c, hc⟩ := List.exists_mem_of_ne_nil u some
          have inside : c ∈ v := split ▸ List.mem_append_left _ (List.mem_append_right _ hc)
          rw [List.mem_singleton.mp (suffix.subset inside)] at hc
          exact absurd (run '_' hc) (mark ▸ Bool.false_ne_true)
    · obtain ⟨u, rfl, nonempty, run⟩ := spelled member h
      have same : y = ['_'] := (List.prefix_concat_iff.mp start).resolve_right (mt List.prefix_nil.mp some)
      obtain ⟨z, ends⟩ := reach
      have last := congrArg List.getLast? ends
      rw [same, List.getLast?_concat, List.getLast?_append_of_ne_nil _ nonempty] at last
      exact absurd (run '_' (List.mem_of_getLast? last.symm)) (mark ▸ Bool.false_ne_true)
  obtain ⟨z, same⟩ := stays
  rw [← same, List.getLast?_concat]

end

end Keyword

/-- The name ends in a keyword that may stand there when its turn comes, after the rules before its own. -/
def NamesIdentifier (n : List Char) : Prop :=
  ∃ before k after, keywords = before ++ k :: after ∧ ∃ x, n = x ++ k.chars ∧
    (applyRules (before.map Keyword.rule) x).getLast?.any k.notAfter = false

theorem NamesIdentifier.suffix {n : List Char} (h : NamesIdentifier n) : ∃ k ∈ keywords, k.chars <:+ n := by
  obtain ⟨before, k, after, split, x, same, _⟩ := h
  exact ⟨k, (keywords_before split).1, x, same.symm⟩

theorem applyRules_nil (rules : List Rule) : applyRules rules [] = [] := by
  induction rules with
  | nil => rfl
  | cons r rules ih => exact ih

section
variable {b m n : List Char} {before after : List Keyword}

/-- A keyword at the end of a name was there before any rule was applied. -/
theorem suffix_of_applyRules {k : Keyword} (hk : k.Lawful)
    (h : k.chars <:+ applyRules (before.map Keyword.rule) n) : k.chars <:+ n := by
  induction before using List.reverseRecOn with
  | nil => exact h
  | append_singleton before e ih =>
      rw [List.map_append, List.map_singleton, applyRules_concat] at h
      have last : e.rule.replacement.toList.getLast? = some 'X' := by
        rw [Keyword.replacement_eq, List.getLast?_concat]
      exact ih (Pattern.suffix_of_replaceFrom last hk.capital_not_mem h)

theorem namesIdentifier_of_closes {k : Keyword} (split : keywords = before ++ k :: after)
    (h : k.Closes (applyRules (before.map Keyword.rule) n)) : NamesIdentifier n := by
  obtain ⟨hk, earlier, clear⟩ := keywords_before split
  have lawful := keywords_lawful hk
  obtain ⟨x', same, free⟩ := h
  obtain ⟨x, rfl⟩ := suffix_of_applyRules lawful ⟨x', same.symm⟩
  have passed := applyRules_passes lawful earlier clear (a := x) (d := []) (b := []) (List.not_mem_nil) (by decide)
  rw [applyRules_nil, List.append_nil, List.append_nil, same, List.append_cancel_right_eq] at passed
  exact ⟨before, k, after, split, x, rfl, passed ▸ free⟩

theorem applyRules_unmarked (lawful : ∀ e ∈ before, e.Lawful) (hm : '_' ∉ m) (hb : Ends b) :
    applyRules (before.map Keyword.rule) (m ++ b) = m ++ applyRules (before.map Keyword.rule) b := by
  induction before generalizing b with
  | nil => rfl
  | cons e before ih =>
      obtain ⟨he, later⟩ := List.forall_mem_cons.mp lawful
      have rest := ih later (he.ends_apply hb)
      rw [← he.replaceFrom_unmarked hm hb none] at rest
      exact rest

/-- The rules of identifiers leave what stands behind a name, and the underscore that the name ends in. -/
theorem applyRules_name (hn : n.getLast? = some '_') (unnamed : ¬ NamesIdentifier n) (hm : '_' ∉ m) (hb : Ends b)
    (split : keywords = before ++ after) :
    applyRules (before.map Keyword.rule) (n ++ (m ++ b)) =
        applyRules (before.map Keyword.rule) n ++ (m ++ applyRules (before.map Keyword.rule) b) ∧
      (applyRules (before.map Keyword.rule) n).getLast? = some '_' := by
  induction before using List.reverseRecOn generalizing after with
  | nil => exact ⟨rfl, hn⟩
  | append_singleton before e ih =>
      rw [List.append_assoc, List.singleton_append] at split
      obtain ⟨he, earlier, _⟩ := keywords_before split
      obtain ⟨same, last⟩ := ih split
      have closes := mt (namesIdentifier_of_closes split) unnamed
      rw [List.map_append, List.map_singleton, applyRules_concat, applyRules_concat, applyRules_concat, same,
        (keywords_lawful he).apply_name last closes hm (ends_applyRules earlier hb)]
      exact ⟨rfl, (keywords_lawful he).getLast?_apply last⟩

end

theorem matchAt_version {v : String} (hv : IsVersion v) (before : Option Char) (b : List Char) :
    versionRule.pattern.matchAt before ('_' :: v.toList ++ b) = some ⟨('_' :: v.toList).length, [], b⟩ := by
  obtain ⟨x, y, z, same, hx, hy, hz, digits⟩ := hv
  rw [List.all_eq_true, List.forall_mem_append, List.forall_mem_append] at digits
  obtain ⟨⟨digits, digits'⟩, digits''⟩ := digits
  have spelled : '_' :: v.toList ++ b =
      "_".toList ++ (x ++ (".".toList ++ (y ++ (".".toList ++ (z ++ b))))) := by simp [same]
  have size : ('_' :: v.toList).length = 11 := by simp [same, hx, hy, hz]
  rw [versionRule, Pattern.matchAt_anywhere, size, spelled, versionPieces, matchPieces_text_append,
    matchPieces_exactly_append hx digits, matchPieces_text_append, matchPieces_exactly_append hy digits',
    matchPieces_text_append, matchPieces_exactly_append hz digits'']
  rfl

theorem matchAt_version_ends {b : List Char} (hb : Ends b) (before : Option Char) :
    versionRule.pattern.matchAt before b = none := by
  cases b with
  | nil => exact Pattern.matchAt_anywhere _ before []
  | cons c b =>
      refine Pattern.matchAt_startsElsewhere ?_ before b
      rcases hb.head with rfl | rfl <;> decide

/-- The rule of versions takes one away, and nothing around it. -/
theorem apply_version {v : String} (hv : IsVersion v) {b : List Char} (hb : Ends b) (a : List Char) :
    versionRule.apply (a ++ '_' :: (v.toList ++ b)) = versionRule.apply a ++ versionRule.apply b := by
  have parts : versionRule.pattern.Parts a ('_' :: (v.toList ++ b)) :=
    Pattern.parts_of_head (show versionPieces.tail.all (Piece.avoids '_') = true by decide) a _
  have replaced := Pattern.replaceFrom_matched versionRule.replacement.toList (matchAt_version hv a.getLast? b) rfl
    (List.cons_ne_nil _ _)
  rw [List.cons_append] at replaced
  rw [Rule.apply, Pattern.replaceAll_parts parts, replaced, Pattern.replaceFrom_before (matchAt_version_ends hb)]
  rfl

theorem getLast?_lower_name {a : String} (ha : 'Σ' ∉ a.toList) :
    (lower (a ++ "_").toList).getLast? = some '_' := by
  have mark : lower "_".toList = ['_'] := by decide
  rw [String.toList_append, lower_append ha (by decide), mark, List.getLast?_concat]

theorem lower_version {a v b : String} (hv : IsVersion v) (ha : 'Σ' ∉ a.toList) (hb : 'Σ' ∉ b.toList) :
    lower (a ++ "_" ++ v ++ b).toList = lower (a ++ "_").toList ++ (v.toList ++ lower b.toList) := by
  have name : 'Σ' ∉ (a ++ "_").toList := by
    rw [String.toList_append, List.mem_append, not_or]
    exact ⟨ha, by decide⟩
  have version : 'Σ' ∉ v.toList := fun member => (hv.small _ member).1 rfl
  have rest : 'Σ' ∉ v.toList ++ b.toList := by
    rw [List.mem_append]
    exact not_or.mpr ⟨version, hb⟩
  have spread : (a ++ "_" ++ v ++ b).toList = (a ++ "_").toList ++ (v.toList ++ b.toList) := by
    simp only [String.toList_append, List.append_assoc]
  rw [spread, lower_append name rest, lower_append version hb, lower_eq_self hv.small]

/-- All the rules of identifiers together. -/
theorem idRules_name {b m n : List Char} (hn : n.getLast? = some '_') (unnamed : ¬ NamesIdentifier n) (hm : '_' ∉ m)
    (hb : Ends b) : applyRules idRules (n ++ (m ++ b)) = applyRules idRules n ++ (m ++ applyRules idRules b) ∧
      (applyRules idRules n).getLast? = some '_' := by
  rw [idRules_eq]
  exact applyRules_name hn unnamed hm hb (List.append_nil _).symm

theorem ends_idRules {b : List Char} (hb : Ends b) : Ends (applyRules idRules b) := by
  rw [idRules_eq]
  exact ends_applyRules (fun _ => keywords_lawful) hb

/-- Behind a name that is not that of an identifier, a version leaves no trace. -/
theorem applyRules_version {v : String} (hv : IsVersion v) {n b : List Char} (hn : n.getLast? = some '_')
    (unnamed : ¬ NamesIdentifier n) (hb : Ends b) {x : List Char} (name : applyRules idRules n = x ++ ['_']) :
    applyRules pathRules (applyRules idRules (n ++ (v.toList ++ b))) =
      copyRule.apply (versionRule.apply x ++ versionRule.apply (applyRules idRules b)) := by
  rw [(idRules_name hn unnamed hv.unmarked hb).1, name, List.append_assoc, List.singleton_append,
    ← apply_version hv (ends_idRules hb)]
  rfl

theorem pathKey_version {a b v w : String} (ends : Ends b.toList) (ha : 'Σ' ∉ a.toList) (hb : 'Σ' ∉ b.toList)
    (unnamed : ¬ NamesIdentifier (lower (a ++ "_").toList)) (hv : IsVersion v) (hw : IsVersion w) :
    pathKey (a ++ "_" ++ v ++ b) = pathKey (a ++ "_" ++ w ++ b) := by
  have mark := getLast?_lower_name ha
  obtain ⟨x, name⟩ := List.getLast?_eq_some_iff.mp (idRules_name mark unnamed hv.unmarked (ends_lower ends hb)).2
  have removed {v : String} (hv : IsVersion v) := applyRules_version hv mark unnamed (ends_lower ends hb) name
  rw [pathKey, pathKey, keyPass, keyPass, lower_version hv ha hb, lower_version hw ha hb, removed hv, removed hw]

/-- What two versions leave of themselves behind the mark of an identifier. -/
def olderRest : List Char := ".00.0000".toList

def newerRest : List Char := ".01.0000".toList

/-- Two texts that differ in these rests only. -/
def Beside (s t : List Char) : Prop :=
  ∃ a c b, c ∈ ['x', 'X'] ∧ s = a ++ c :: (olderRest ++ b) ∧ t = a ++ c :: (newerRest ++ b)

namespace Beside
variable {s t : List Char}

theorem ne (h : Beside s t) : s ≠ t := by
  obtain ⟨a, c, b, _, rfl, rfl⟩ := h
  intro same
  rw [List.append_cancel_left_eq, List.cons.injEq, List.append_cancel_right_eq] at same
  exact absurd same.2 (by decide)

/-- The rules stop at the mark of an identifier, and none begins in a rest. -/
theorem rules_bar : ['x', 'X'].all (fun c => (idRules ++ pathRules).all fun r => r.pattern.bars c) = true := by
  decide

theorem rules_elsewhere : (olderRest ++ newerRest).all (fun c => (idRules ++ pathRules).all fun r =>
    r.pattern.alternatives.all (startsElsewhere c)) = true := by
  decide

theorem apply_rest {r : Rule} (hr : r ∈ idRules ++ pathRules) {c : Char} (hc : c ∈ ['x', 'X']) {m : List Char}
    (hm : ∀ d ∈ m, d ∈ olderRest ++ newerRest) (last : m.getLast? = some '0') (a b : List Char) :
    r.apply (a ++ c :: (m ++ b)) =
      r.apply a ++ c :: (m ++ r.pattern.replaceFrom r.replacement.toList 0 (some '0') b) := by
  have bar := List.all_eq_true.mp (List.all_eq_true.mp rules_bar c hc) r hr
  have elsewhere : ∀ d ∈ m, r.pattern.alternatives.all (startsElsewhere d) = true := fun d hd =>
    List.all_eq_true.mp (List.all_eq_true.mp rules_elsewhere d (hm d hd)) r hr
  rw [Rule.apply, Pattern.replaceAll_bar bar, Pattern.replaceFrom_startsElsewhere _ elsewhere, last, Option.some_or]
  rfl

theorem apply (h : Beside s t) {r : Rule} (hr : r ∈ idRules ++ pathRules) : Beside (r.apply s) (r.apply t) := by
  obtain ⟨a, c, b, hc, rfl, rfl⟩ := h
  exact ⟨_, c, _, hc, apply_rest hr hc (fun _ => List.mem_append_left _) rfl a b,
    apply_rest hr hc (fun _ => List.mem_append_right _) rfl a b⟩

theorem rules (h : Beside s t) {rules : List Rule} (known : ∀ r ∈ rules, r ∈ idRules ++ pathRules) :
    Beside (applyRules rules s) (applyRules rules t) := by
  induction rules generalizing s t with
  | nil => exact h
  | cons r rules ih =>
      obtain ⟨hr, later⟩ := List.forall_mem_cons.mp known
      exact ih (h.apply hr) later

theorem slashes (h : Beside s t) : Beside (collapseSlashes s) (collapseSlashes t) := by
  obtain ⟨a, c, b, hc, rfl, rfl⟩ := h
  have slash {m : List Char} (hm : '/' ∉ m) :
      collapseSlashes (a ++ c :: (m ++ b)) = collapseSlashes a ++ c :: (m ++ collapseSlashes b) := by
    have mark : c ≠ '/' := by
      rintro rfl
      exact absurd hc (by decide)
    have rest : '/' ∉ c :: m := by
      rw [List.mem_cons, not_or]
      exact ⟨mark.symm, hm⟩
    rw [collapseSlashes_append (by simpa using mark), ← List.cons_append, collapseSlashes_append_of_not_mem rest]
    rfl
  exact ⟨_, c, _, hc, slash (by decide), slash (by decide)⟩

theorem small_rests {c : Char} (hc : c ∈ olderRest ++ newerRest) : Small c := by
  have plain : (olderRest ++ newerRest).all (fun c => c.toNat < 0x41) = true := by decide
  have low : c.toNat < 0x41 := by simpa using List.all_eq_true.mp plain c hc
  exact small_of_ascii (Nat.lt_trans low (by decide)) (by omega)

theorem small (h : Beside s t) (hs : ∀ c ∈ s, Small c) : ∀ c ∈ t, Small c := by
  obtain ⟨a, c, b, _, rfl, rfl⟩ := h
  simp only [List.forall_mem_append, List.forall_mem_cons] at hs ⊢
  exact ⟨hs.1, hs.2.1, fun d hd => small_rests (List.mem_append_right _ hd), hs.2.2.2⟩

theorem lowered (h : Beside s t) (hs : 'Σ' ∉ s) : Beside (lower s) (lower t) := by
  obtain ⟨a, c, b, hc, rfl, rfl⟩ := h
  have mark : lowerChar c = ['x'] := by
    rcases List.mem_pair.mp hc with rfl | rfl <;> decide
  have spread {m : List Char} (hm : ∀ d ∈ m, d ∈ olderRest ++ newerRest) :
      lower (a ++ c :: (m ++ b)) = a.flatMap lowerChar ++ 'x' :: (m ++ b.flatMap lowerChar) := by
    have rest : 'Σ' ∉ m := fun member => (small_rests (hm _ member)).1 rfl
    have whole : 'Σ' ∉ a ++ c :: (m ++ b) := by
      simp only [List.mem_append, List.mem_cons, not_or] at hs ⊢
      exact ⟨hs.1, hs.2.1, rest, hs.2.2.2⟩
    rw [lower_eq_flatMap whole, List.flatMap_append, List.flatMap_cons, List.flatMap_append, mark,
      ← lower_eq_flatMap rest, lower_eq_self fun d hd => small_rests (hm d hd)]
    rfl
  exact ⟨_, 'x', _, by decide, spread fun _ => List.mem_append_left _, spread fun _ => List.mem_append_right _⟩

theorem trimmed (h : Beside s t) : Beside (trim s) (trim t) := by
  obtain ⟨a, c, b, hc, rfl, rfl⟩ := h
  have mark : isBlank c = false := by
    rcases List.mem_pair.mp hc with rfl | rfl <;> decide
  have spread {m : List Char} (last : m.getLast? = some '0') :
      trim (a ++ c :: (m ++ b)) = trimStart a ++ c :: (m ++ trimEnd b) := by
    obtain ⟨m, rfl⟩ := List.getLast?_eq_some_iff.mp last
    have stop : (trimStart a ++ c :: (m ++ ['0'])).getLast?.any isBlank = false := by
      rw [← List.cons_append, ← List.append_assoc, List.getLast?_concat]
      decide
    rw [trim, trimStart_append (by exact mark), ← List.cons_append, ← List.append_assoc, trimEnd_append stop,
      List.append_assoc]
    rfl
  exact ⟨_, c, _, hc, spread rfl, spread rfl⟩

/-- What the pass does after the rules of identifiers. -/
theorem finish (h : Beside s t) (known : ∀ c ∈ s, Small c ∨ c = 'X') :
    Beside (trim (lower (collapseSlashes (applyRules pathRules s))))
      (trim (lower (collapseSlashes (applyRules pathRules t)))) := by
  have rules : Beside (applyRules pathRules s) (applyRules pathRules t) := h.rules fun _ => List.mem_append_right _
  refine (rules.slashes.lowered fun sigma => ?_).trimmed
  rcases mem_applyRules pathRules_tame ((collapseSlashes_sublist _).subset sigma) with before | capital
  · exact (known _ before).elim (fun small => small.1 rfl) (by decide)
  · exact absurd capital (by decide)

theorem pass (h : Beside s t) (hs : ∀ c ∈ s, Small c) : Beside (keyPass s) (keyPass t) := by
  have rules : Beside (applyRules idRules s) (applyRules idRules t) := h.rules fun _ => List.mem_append_left _
  rw [keyPass, keyPass, lower_eq_self hs, lower_eq_self (h.small hs)]
  exact rules.finish fun c hc => (mem_applyRules idRules_tame hc).imp_left (hs c)

theorem weight_eq (h : Beside s t) (hs : ∀ c ∈ s, Small c) : weight s = weight t := by
  have plain {s : List Char} (hs : ∀ c ∈ s, Small c) : weight s = mass s :=
    weight_eq_mass fun capital => absurd (hs _ capital).2 (by decide)
  rw [plain hs, plain (h.small hs)]
  obtain ⟨a, c, b, _, rfl, rfl⟩ := h
  have rests : mass olderRest = mass newerRest := by decide
  rw [mass_append, mass_cons, mass_append, rests, ← mass_append, ← mass_cons, ← mass_append]

/-- The passes go on over both texts or over neither. -/
theorem settled (h : Beside s t) (hs : ∀ c ∈ s, Small c) : Beside (settle s) (settle t) := by
  have pass := h.pass hs
  have small := small_keyPass s
  induction s using settle.induct generalizing t with
  | case1 s lighter ih =>
      rw [settle, if_pos lighter]
      rw [h.weight_eq hs, pass.weight_eq small] at lighter
      rw [settle.eq_def t, if_pos lighter]
      exact ih pass small (pass.pass small) (small_keyPass _)
  | case2 s heavy =>
      rw [settle, if_neg heavy]
      rw [h.weight_eq hs, pass.weight_eq small] at heavy
      rw [settle.eq_def t, if_neg heavy]
      exact pass

end Beside

theorem keywords_digit : keywords.all (fun k => k.inRun '0') = true := by decide

/-- Behind a keyword, the first digits of a version are an identifier, and what is left is no version. -/
theorem applyRules_keyword {n b : List Char} (named : NamesIdentifier n) (hb : Ends b) :
    Beside (applyRules idRules (n ++ ("00".toList ++ olderRest ++ b)))
      (applyRules idRules (n ++ ("00".toList ++ newerRest ++ b))) := by
  obtain ⟨before, k, after, split, x, rfl, free⟩ := named
  obtain ⟨hk, earlier, _⟩ := keywords_before split
  have digits : ∀ c ∈ "00".toList, k.inRun c = true := by
    intro c hc
    rw [List.eq_of_mem_replicate (n := 2) hc]
    exact List.all_eq_true.mp keywords_digit k hk
  have taken {m : List Char} (ends : Ends (m ++ b)) (hm : '_' ∉ m) :
      applyRules idRules (x ++ k.chars ++ ("00".toList ++ m ++ b)) = applyRules (after.map Keyword.rule)
        (k.rule.apply (applyRules (before.map Keyword.rule) x) ++ k.chars ++
          'X' :: (m ++ k.rule.apply (applyRules (before.map Keyword.rule) b))) := by
    have spread : x ++ k.chars ++ ("00".toList ++ m ++ b) = x ++ (k.chars ++ "00".toList ++ (m ++ b)) := by
      simp only [List.append_assoc]
    have rest : k.rule.apply (m ++ _) = m ++ k.rule.apply (applyRules (before.map Keyword.rule) b) :=
      (keywords_lawful hk).replaceFrom_unmarked hm (ends_applyRules earlier hb) none
    rw [spread, applyRules_taken split free ends (by decide) digits, applyRules_unmarked earlier hm hb, rest,
      List.append_assoc]
  have dot (s : List Char) : Ends ('.' :: s) := by simp [Ends]
  rw [taken (dot _) (by decide), taken (dot _) (by decide)]
  refine Beside.rules ⟨_, 'X', _, by decide, rfl, rfl⟩ fun r hr => ?_
  rw [idRules_eq, split, List.map_append, List.map_cons]
  exact List.mem_append_left _ (List.mem_append_right _ (List.mem_cons_of_mem _ hr))

theorem isVersion_older : IsVersion "00.00.0000" :=
  ⟨['0', '0'], ['0', '0'], ['0', '0', '0', '0'], by decide, rfl, rfl, rfl, by decide⟩

theorem isVersion_newer : IsVersion "00.01.0000" :=
  ⟨['0', '0'], ['0', '1'], ['0', '0', '0', '0'], by decide, rfl, rfl, rfl, by decide⟩

theorem pathKey_keyword {a b : String} (ends : Ends b.toList) (ha : 'Σ' ∉ a.toList) (hb : 'Σ' ∉ b.toList)
    (named : NamesIdentifier (lower (a ++ "_").toList)) :
    pathKey (a ++ "_" ++ "00.00.0000" ++ b) ≠ pathKey (a ++ "_" ++ "00.01.0000" ++ b) := by
  have rules := applyRules_keyword named (ends_lower ends hb)
  have older : "00".toList ++ olderRest = "00.00.0000".toList := by decide
  have newer : "00".toList ++ newerRest = "00.01.0000".toList := by decide
  rw [older, newer, ← lower_version isVersion_older ha hb, ← lower_version isVersion_newer ha hb] at rules
  have first : Beside (keyPass (a ++ "_" ++ "00.00.0000" ++ b).toList)
      (keyPass (a ++ "_" ++ "00.01.0000" ++ b).toList) :=
    rules.finish fun c hc => (mem_applyRules idRules_tame hc).imp_left small_of_mem_lower
  intro same
  exact (first.settled (small_keyPass _)).ne (String.ofList_inj.mp same)

/-- All versions of an artifact have one key exactly when the name before the version is not that of an
identifier. -/
theorem pathKey_versions_iff {a b : String} (ends : Ends b.toList) (ha : 'Σ' ∉ a.toList) (hb : 'Σ' ∉ b.toList) :
    (∀ v w, IsVersion v → IsVersion w → pathKey (a ++ "_" ++ v ++ b) = pathKey (a ++ "_" ++ w ++ b)) ↔
      ¬ NamesIdentifier (lower (a ++ "_").toList) := by
  constructor
  · intro same named
    exact pathKey_keyword ends ha hb named (same _ _ isVersion_older isVersion_newer)
  · intro unnamed v w hv hw
    exact pathKey_version ends ha hb unnamed hv hw

theorem pathKey_versions_orders :
    Ends "/flow.xml".toList ∧ 'Σ' ∉ "ORDERS".toList ∧ 'Σ' ∉ "/flow.xml".toList ∧
      ¬ NamesIdentifier (lower ("ORDERS" ++ "_").toList) ∧
      pathKey ("ORDERS" ++ "_" ++ "00.00.0000" ++ "/flow.xml") =
        pathKey ("ORDERS" ++ "_" ++ "00.01.0000" ++ "/flow.xml") := by
  have ends : Ends "/flow.xml".toList := by decide
  have left : 'Σ' ∉ "ORDERS".toList := by decide
  have right : 'Σ' ∉ "/flow.xml".toList := by decide
  have unnamed : ¬ NamesIdentifier (lower ("ORDERS" ++ "_").toList) := by
    intro named
    obtain ⟨k, hk, suffix⟩ := named.suffix
    have apart : ∀ k ∈ keywords, ¬ k.chars <:+ lower ("ORDERS" ++ "_").toList := by decide
    exact apart k hk suffix
  have versions := (pathKey_versions_iff ends left right).mpr unnamed
  exact ⟨ends, left, right, unnamed, versions _ _ isVersion_older isVersion_newer⟩

/-- The first number of a version is an identifier for an artifact of this name. -/
theorem pathKey_application :
    IsVersion "01.02.0000" ∧ IsVersion "01.03.0000" ∧
      pathKey ("application" ++ "_" ++ "01.02.0000" ++ ".iar") ≠
        pathKey ("application" ++ "_" ++ "01.03.0000" ++ ".iar") := by
  refine ⟨⟨['0', '1'], ['0', '2'], ['0', '0', '0', '0'], by decide, rfl, rfl, rfl, by decide⟩,
    ⟨['0', '1'], ['0', '3'], ['0', '0', '0', '0'], by decide, rfl, rfl, rfl, by decide⟩, by decide +kernel⟩

end ExportDiff.Noise
