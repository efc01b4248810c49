/- An identifier that is generated anew leaves the key of its path as it was. -/
import ExportDiff.Noise.Content
import ExportDiff.Proofs.Noise.PathKey
import ExportDiff.Proofs.Text.Replace
import Mathlib.Data.List.TakeWhile

namespace ExportDiff.Noise
open Text

/-- A keyword with the class of the run behind it, and that of the characters that it may not follow. -/
structure Keyword where
  notAfter : Char → Bool
  word : String
  inRun : Char → Bool

namespace Keyword

def rule (k : Keyword) : Rule := ⟨⟨k.notAfter, [[.text k.word, .run k.inRun]]⟩, k.word ++ "X"⟩

def chars (k : Keyword) : List Char := k.word.toList

/-- Small letters with an underscore behind them; the run is none of what ends a name, and the keyword
may stand at the head of a path segment. -/
structure Lawful (k : Keyword) : Prop where
  spelled : ∃ v, k.chars = v ++ ['_'] ∧ ∀ c ∈ v, c.isLower = true
  ends : ∀ c ∈ ['_', '/', '.'], k.inRun c = false
  segment : k.notAfter '/' = false

/-- Neither keyword ends in the other, and a run of the first ends where the second begins. -/
def Clears (e k : Keyword) : Prop :=
  ¬ e.chars <:+ k.chars ∧ ¬ k.chars <:+ e.chars ∧ k.chars.head?.any e.inRun = false

instance (e k : Keyword) : Decidable (e.Clears k) := inferInstanceAs (Decidable (_ ∧ _))

end Keyword

def keywords : List Keyword :=
  [⟨fun _ => false, "processor_", isDigit⟩, ⟨fun _ => false, "resourcegroup_", isDigit⟩,
   ⟨fun _ => false, "application_", isDigit⟩, ⟨fun _ => false, "inbound_", isDigit⟩,
   ⟨fun _ => false, "outbound_", isDigit⟩, ⟨fun _ => false, "itg_", isHexOrDash⟩,
   ⟨Char.isAlphanum, "req_", isHex⟩, ⟨Char.isAlphanum, "res_", isHex⟩]

theorem idRules_eq : idRules = keywords.map Keyword.rule := rfl

/-- A content that is not XML loses its identifiers and nothing else. -/
theorem toList_bareContent {path : String} (plain : Artifact.isXml path = false) (content : String) :
    (bareContent content path).toList = applyRules idRules content.toList := by
  rw [bareContent, plain, if_neg Bool.false_ne_true, String.toList_ofList]

theorem keywords_spelled :
    keywords.all (fun k => k.chars == k.chars.dropLast ++ ['_'] && k.chars.dropLast.all Char.isLower) = true := by
  decide

theorem keywords_end :
    keywords.all (fun k => ['_', '/', '.'].all (fun c => !k.inRun c) && !k.notAfter '/') = true := by
  decide

theorem keywords_lawful {k : Keyword} (hk : k ∈ keywords) : k.Lawful := by
  have spelled := List.all_eq_true.mp keywords_spelled k hk
  have ends := List.all_eq_true.mp keywords_end k hk
  rw [Bool.and_eq_true_iff, beq_iff_eq, List.all_eq_true] at spelled
  rw [Bool.and_eq_true_iff, List.all_eq_true, Bool.not_eq_true'] at ends
  exact ⟨⟨_, spelled⟩, fun c hc => by simpa using ends.1 c hc, ends.2⟩

theorem notAfter_classes : ∀ k ∈ keywords, k.notAfter = (fun _ => false) ∨ k.notAfter = Char.isAlphanum := by
  simp [keywords]

/-- The rules come in such an order that none spoils the keyword of a later one. -/
theorem keywords_clear : keywords.Pairwise Keyword.Clears := by decide

theorem keywords_start : ∀ k ∈ keywords, k.chars.head?.any k.inRun = false := by decide

/-- Nothing follows, or the next path segment, or an extension. -/
def Ends (b : List Char) : Prop := b.head? ∈ [none, some '/', some '.']

instance (b : List Char) : Decidable (Ends b) := inferInstanceAs (Decidable (_ ∈ _))

/-- Nothing stands before, or the path segment begins here. -/
def Opens (a : List Char) : Prop := a.getLast? ∈ [none, some '/']

instance (a : List Char) : Decidable (Opens a) := inferInstanceAs (Decidable (_ ∈ _))

theorem Ends.head {c : Char} {b : List Char} (h : Ends (c :: b)) : c = '/' ∨ c = '.' := by simpa [Ends] using h

theorem Opens.eq_nil_or_concat {a : List Char} (h : Opens a) : a = [] ∨ ∃ x, a = x ++ ['/'] := by
  rcases List.mem_pair.mp h with none | slash
  · exact .inl (List.getLast?_eq_none_iff.mp none)
  · exact .inr (List.getLast?_eq_some_iff.mp slash)

theorem opens_concat (a : List Char) : Opens (a ++ ['/']) := by
  rw [Opens, List.getLast?_concat]
  decide

namespace Keyword

section
variable {e k : Keyword} {a b d s x y : List Char}

theorem replacement_eq (k : Keyword) : k.rule.replacement.toList = k.chars ++ ['X'] := by
  rw [rule, String.toList_append]
  rfl

theorem Lawful.ne_mark {c : Char} (hc : c.isLower = true) : c ≠ '_' ∧ c ≠ '/' ∧ c ≠ '.' := by
  refine ⟨?_, ?_, ?_⟩ <;> rintro rfl <;> exact absurd hc (by decide)

theorem Lawful.ne_nil (hk : k.Lawful) : k.chars ≠ [] := by
  obtain ⟨v, same, _⟩ := hk.spelled
  rw [same]
  exact List.append_ne_nil_of_right_ne_nil v (List.cons_ne_nil _ _)

theorem Lawful.ends_not_mem (hk : k.Lawful) {c : Char} (hb : Ends (c :: b)) : c ∉ k.chars := by
  obtain ⟨v, same, lower⟩ := hk.spelled
  rw [same, List.mem_append, List.mem_singleton, not_or]
  refine ⟨fun member => ?_, ?_⟩
  · obtain ⟨_, slash, dot⟩ := ne_mark (lower c member)
    exact hb.head.elim slash dot
  · rcases hb.head with rfl | rfl <;> decide

/-- Only the last character of a keyword is an underscore, so whatever a keyword ends in is a whole
keyword where it stands before one. -/
theorem Lawful.eq_of_suffix (he : e.Lawful) (hk : k.Lawful) (suffix : y <:+ e.chars) (some : y ≠ [])
    (start : y <+: k.chars ++ s) : y = k.chars := by
  obtain ⟨v, spelled, lower⟩ := he.spelled
  obtain ⟨w, spelled', lower'⟩ := hk.spelled
  have last : y.getLast? = Option.some '_' := by
    obtain ⟨z, same⟩ := suffix
    have := congrArg List.getLast? (same.trans spelled)
    rw [List.getLast?_append, List.getLast?_concat] at this
    rw [List.getLast?_eq_some_getLast some] at this ⊢
    exact this
  obtain ⟨u, rfl⟩ := List.getLast?_eq_some_iff.mp last
  have hu : '_' ∉ u := by
    intro member
    obtain ⟨z, same⟩ := suffix
    rw [spelled, ← List.append_assoc, List.append_left_inj] at same
    exact (ne_mark (lower _ (same ▸ List.mem_append_right z member))).1 rfl
  have hw : '_' ∉ w := fun member => (ne_mark (lower' _ member)).1 rfl
  obtain ⟨t, same⟩ := start
  rw [spelled', List.append_assoc, List.append_assoc] at same
  rw [before_first hu hw same, spelled']

theorem Lawful.capital_not_mem (hk : k.Lawful) : 'X' ∉ k.chars := by
  obtain ⟨v, spelled, lower⟩ := hk.spelled
  rw [spelled, List.mem_append, List.mem_singleton, not_or]
  exact ⟨fun member => absurd (lower _ member) (by decide), by decide⟩

theorem matchAt_elsewhere (h : ¬ k.chars <+: s) (before : Option Char) :
    k.rule.pattern.matchAt before s = none := by
  rw [rule, Pattern.matchAt_single, matchPieces_text_eq_none h]
  split <;> rfl

theorem matchAt_chars (before : Option Char) (s : List Char) :
    k.rule.pattern.matchAt before (k.chars ++ s) =
      if before.any k.notAfter then none
      else (matchPieces [.run k.inRun] s).map (Match.after k.chars.length) := by
  rw [rule, Pattern.matchAt_single, chars, matchPieces_text_append]

/-- No match crosses into a text that no run goes on into and no end of the keyword begins. -/
theorem parts_of_apart (stop : s.head?.any e.inRun = false)
    (apart : ∀ y, y ≠ [] → y <:+ e.chars → y ≠ e.chars → ¬ y <+: s) (a : List Char) :
    e.rule.pattern.Parts a s := by
  intro x some _ before
  by_cases here : e.chars <+: x
  · obtain ⟨r, rfl⟩ := here
    have first : (r ++ s).head?.any e.inRun = r.head?.any e.inRun := by
      cases r with
      | nil => exact stop
      | cons c r => rfl
    rw [List.append_assoc, matchAt_chars, matchAt_chars, matchPieces_run, matchPieces_run, first,
      takeWhile_append_of_stop stop]
    split
    · rfl
    · split <;> rfl
  · have beyond : ¬ e.chars <+: x ++ s := by
      intro long
      rcases List.prefix_or_prefix_of_prefix long (List.prefix_append x _) with short | ⟨y, same⟩
      · exact here short
      · rw [← same, List.prefix_append_right_inj] at long
        refine apart y ?_ ⟨x, same⟩ ?_ long
        · rintro rfl
          rw [List.append_nil] at same
          exact here (same ▸ List.prefix_rfl)
        · rintro rfl
          exact some (List.append_left_eq_self.mp same)
    rw [matchAt_elsewhere beyond, matchAt_elsewhere here]

theorem Lawful.parts (he : e.Lawful) (hk : k.Lawful) (apart : k.chars <:+ e.chars → k.chars = e.chars)
    (start : k.chars.head?.any e.inRun = false) (a s : List Char) :
    e.rule.pattern.Parts a (k.chars ++ s) := by
  refine parts_of_apart ?_ (fun y some suffix proper begins => ?_) a
  · rw [List.head?_append_of_ne_nil _ hk.ne_nil]
    exact start
  · have whole := he.eq_of_suffix hk suffix some begins
    exact proper (whole.trans (apart (whole ▸ suffix)))

theorem Lawful.prefix_of_ends (he : e.Lawful) (hb : Ends b) (h : e.chars <+: x ++ b) : e.chars <+: x := by
  rcases List.prefix_or_prefix_of_prefix h (List.prefix_append x b) with short | ⟨y, same⟩
  · exact short
  · rw [← same, List.prefix_append_right_inj] at h
    obtain ⟨t, rfl⟩ := h
    cases y with
    | nil =>
        rw [List.append_nil] at same
        exact same ▸ List.prefix_rfl
    | cons c y =>
        refine absurd ?_ (he.ends_not_mem hb)
        rw [← same]
        exact List.mem_append_right x List.mem_cons_self

theorem Lawful.matchAt_ends (he : e.Lawful) (hb : Ends b) (before : Option Char) :
    e.rule.pattern.matchAt before b = none := by
  refine matchAt_elsewhere (fun h => he.ne_nil ?_) before
  exact List.prefix_nil.mp (he.prefix_of_ends (x := []) hb h)

theorem Lawful.not_within (he : e.Lawful) (hk : k.Lawful) (apart : ¬ e.chars <:+ k.chars) (hd : '_' ∉ d)
    (hb : Ends b) (suffix : x <:+ k.chars ++ d) : ¬ e.chars <+: x ++ b := by
  intro h
  obtain ⟨z, rfl⟩ := he.prefix_of_ends hb h
  obtain ⟨v, spelled, _⟩ := he.spelled
  obtain ⟨w, spelled', lower⟩ := hk.spelled
  obtain ⟨y, same⟩ := suffix
  have hw : '_' ∉ w := fun member => (ne_mark (lower _ member)).1 rfl
  rw [spelled, spelled', ← List.append_assoc, ← List.append_assoc, List.append_assoc w, List.append_assoc (y ++ v)] at same
  obtain ⟨rfl, _, _⟩ := (List.append_cons_inj_of_notMem hw hd).mp same.symm
  exact apart ⟨y, by rw [spelled, spelled', List.append_assoc]⟩

/-- A rule of another keyword passes over a keyword with its run. -/
theorem Clears.apply (clear : e.Clears k) (he : e.Lawful) (hk : k.Lawful) (hd : '_' ∉ d) (hb : Ends b) :
    e.rule.apply (a ++ (k.chars ++ d ++ b)) = e.rule.apply a ++ (k.chars ++ d ++ e.rule.apply b) := by
  obtain ⟨not_in_k, not_in_e, start⟩ := clear
  have parts : e.rule.pattern.Parts a (k.chars ++ d ++ b) := by
    rw [List.append_assoc]
    exact he.parts hk (fun suffix => absurd suffix not_in_e) start a _
  have unmatched : ∀ x, x ≠ [] → x <:+ k.chars ++ d → ∀ before, e.rule.pattern.matchAt before (x ++ b) = none :=
    fun x _ suffix => matchAt_elsewhere (he.not_within hk not_in_k hd hb suffix)
  rw [Rule.apply, Pattern.replaceAll_parts parts, Pattern.replaceFrom_unmatched unmatched,
    Pattern.replaceFrom_before (he.matchAt_ends hb)]
  rfl

/-- Its own rule takes a keyword with the whole run behind it. -/
theorem Lawful.apply (hk : k.Lawful) (start : k.chars.head?.any k.inRun = false)
    (free : a.getLast?.any k.notAfter = false) (some : d ≠ []) (run : ∀ c ∈ d, k.inRun c = true) (hb : Ends b) :
    k.rule.apply (a ++ (k.chars ++ d ++ b)) = k.rule.apply a ++ (k.chars ++ 'X' :: k.rule.apply b) := by
  have parts : k.rule.pattern.Parts a (k.chars ++ d ++ b) := by
    rw [List.append_assoc]
    exact hk.parts hk (fun _ => rfl) start a _
  have stop : b.head?.any k.inRun = false := by
    cases b with
    | nil => rfl
    | cons c b =>
        refine hk.ends c ?_
        rcases hb.head with rfl | rfl <;> decide
  have taken : ((d ++ b).takeWhile k.inRun).length = d.length := by
    rw [takeWhile_append_of_stop stop, List.takeWhile_eq_self_iff.mpr run]
  have first : (d ++ b).head?.any k.inRun = true := by
    cases d with
    | nil => exact absurd rfl some
    | cons c d => exact run c List.mem_cons_self
  have here : k.rule.pattern.matchAt a.getLast? (k.chars ++ d ++ b) =
      .some (Match.after k.chars.length ⟨d.length, [], (d ++ b).dropWhile k.inRun⟩) := by
    rw [List.append_assoc, matchAt_chars, free, if_neg Bool.false_ne_true, matchPieces_run, if_pos first, taken]
    rfl
  have replaced := Pattern.replaceFrom_matched k.rule.replacement.toList here
    (by rw [List.length_append]; rfl) (List.append_ne_nil_of_left_ne_nil hk.ne_nil d)
  rw [Rule.apply, Pattern.replaceAll_parts parts, replaced, Pattern.replaceFrom_before (hk.matchAt_ends hb)]
  change k.rule.apply a ++ (k.rule.replacement.toList ++ k.rule.apply b) = _
  rw [replacement_eq, List.append_assoc]
  rfl

theorem Lawful.ends_apply (he : e.Lawful) (hb : Ends b) : Ends (e.rule.apply b) := by
  cases b with
  | nil => exact hb
  | cons c b =>
      rw [Rule.apply, Pattern.replaceAll, Pattern.replaceFrom, he.matchAt_ends hb]
      exact hb

theorem Lawful.opens_apply (he : e.Lawful) (ha : Opens a) : Opens (e.rule.apply a) := by
  rcases ha.eq_nil_or_concat with rfl | ⟨a, rfl⟩
  · exact List.mem_cons_self
  · have ends : Ends ['/'] := by decide
    have stop : (['/'].head?).any e.inRun = false := he.ends '/' (by decide)
    have parts : e.rule.pattern.Parts a ['/'] := by
      refine parts_of_apart stop (fun y some suffix _ begins => ?_) a
      cases y with
      | nil => exact some rfl
      | cons d y =>
          obtain ⟨rfl, _⟩ := List.cons_prefix_cons.mp begins
          exact he.ends_not_mem ends (suffix.subset List.mem_cons_self)
    rw [Rule.apply, Pattern.replaceAll_parts parts, Pattern.replaceFrom, he.matchAt_ends ends]
    exact opens_concat _

end

/-- The text before a keyword lets it begin there. -/
def Free (k : Keyword) (a : List Char) : Prop := (∀ c, k.notAfter c = false) ∨ Opens a

theorem Free.notAfter {k : Keyword} {a : List Char} (h : k.Free a) (hk : k.Lawful) :
    a.getLast?.any k.notAfter = false := by
  rcases h with anywhere | opens
  · cases a.getLast? with
    | none => rfl
    | some c => exact anywhere c
  · rcases List.mem_pair.mp opens with none | slash
    · rw [none]
      rfl
    · rw [slash]
      exact hk.segment

theorem Free.apply {k e : Keyword} {a : List Char} (h : k.Free a) (he : e.Lawful) : k.Free (e.rule.apply a) :=
  h.imp_right he.opens_apply

end Keyword

theorem ends_applyRules {es : List Keyword} (lawful : ∀ e ∈ es, e.Lawful) {b : List Char} (hb : Ends b) :
    Ends (applyRules (es.map Keyword.rule) b) := by
  induction es generalizing b with
  | nil => exact hb
  | cons e es ih =>
      obtain ⟨he, later⟩ := List.forall_mem_cons.mp lawful
      exact ih later (he.ends_apply hb)

theorem Keyword.Free.applyRules {k : Keyword} {es : List Keyword} (lawful : ∀ e ∈ es, e.Lawful) {a : List Char}
    (free : k.Free a) : k.Free (applyRules (es.map Keyword.rule) a) := by
  induction es generalizing a with
  | nil => exact free
  | cons e es ih =>
      obtain ⟨he, later⟩ := List.forall_mem_cons.mp lawful
      exact ih later (free.apply he)

/-- After the rules before that of its keyword, an identifier stands where it stood. -/
theorem applyRules_passes {k : Keyword} (hk : k.Lawful) {es : List Keyword} (lawful : ∀ e ∈ es, e.Lawful)
    (clear : ∀ e ∈ es, e.Clears k) {a b d : List Char} (hd : '_' ∉ d) (hb : Ends b) :
    applyRules (es.map Keyword.rule) (a ++ (k.chars ++ d ++ b)) =
      applyRules (es.map Keyword.rule) a ++ (k.chars ++ d ++ applyRules (es.map Keyword.rule) b) := by
  induction es generalizing a b with
  | nil => rfl
  | cons e es ih =>
      obtain ⟨he, later⟩ := List.forall_mem_cons.mp lawful
      obtain ⟨here, clear⟩ := List.forall_mem_cons.mp clear
      have rest := ih later clear (a := e.rule.apply a) (he.ends_apply hb)
      rw [← here.apply he hk hd hb] at rest
      exact rest

theorem keywords_before {k : Keyword} {before after : List Keyword} (split : keywords = before ++ k :: after) :
    k ∈ keywords ∧ (∀ e ∈ before, e.Lawful) ∧ ∀ e ∈ before, e.Clears k := by
  have order := keywords_clear
  rw [split, List.pairwise_append] at order
  refine ⟨split ▸ List.mem_append_right _ List.mem_cons_self, fun e he => ?_, fun e he => ?_⟩
  · exact keywords_lawful (split ▸ List.mem_append_left _ he)
  · exact order.2.2 e he k List.mem_cons_self

/-- An identifier that its keyword may begin becomes the keyword and a capital, before the later rules. -/
theorem applyRules_taken {k : Keyword} {before after : List Keyword} (split : keywords = before ++ k :: after)
    {a b d : List Char} (free : (applyRules (before.map Keyword.rule) a).getLast?.any k.notAfter = false)
    (hb : Ends b) (some : d ≠ []) (run : ∀ c ∈ d, k.inRun c = true) :
    applyRules idRules (a ++ (k.chars ++ d ++ b)) = applyRules (after.map Keyword.rule)
      (k.rule.apply (applyRules (before.map Keyword.rule) a) ++
        (k.chars ++ 'X' :: k.rule.apply (applyRules (before.map Keyword.rule) b))) := by
  obtain ⟨hk, earlier, clear⟩ := keywords_before split
  have lawful := keywords_lawful hk
  have unmarked : '_' ∉ d := by
    intro member
    exact Bool.false_ne_true ((lawful.ends '_' List.mem_cons_self).symm.trans (run _ member))
  have passed := applyRules_passes lawful earlier clear (a := a) unmarked hb
  rw [← lawful.apply (keywords_start k hk) free some run (ends_applyRules earlier hb), ← passed, idRules_eq, split,
    List.map_append, applyRules, List.foldl_append, List.map_cons, List.foldl_cons]
  rfl

theorem applyRules_identifier {k : Keyword} (hk : k ∈ keywords) {a b : List Char} (free : k.Free a)
    (hb : Ends b) {d₁ d₂ : List Char} (some₁ : d₁ ≠ []) (run₁ : ∀ c ∈ d₁, k.inRun c = true) (some₂ : d₂ ≠ [])
    (run₂ : ∀ c ∈ d₂, k.inRun c = true) :
    applyRules idRules (a ++ (k.chars ++ d₁ ++ b)) = applyRules idRules (a ++ (k.chars ++ d₂ ++ b)) := by
  obtain ⟨before, after, split⟩ := List.append_of_mem hk
  have begins := (free.applyRules (keywords_before split).2.1).notAfter (keywords_lawful hk)
  rw [applyRules_taken split begins hb some₁ run₁, applyRules_taken split begins hb some₂ run₂]

theorem small_of_isHexOrDash {c : Char} (h : isHexOrDash c = true) : Small c := by
  have range : 0x61 ≤ c.toNat ∧ c.toNat ≤ 0x66 ∨ 0x30 ≤ c.toNat ∧ c.toNat ≤ 0x39 ∨ c.toNat = 0x2D := by
    simp only [isHexOrDash, isHex, Bool.or_eq_true, Bool.and_eq_true, decide_eq_true_eq, beq_iff_eq] at h
    rcases h with (⟨low, high⟩ | ⟨low, high⟩) | rfl
    · exact .inl ⟨low, high⟩
    · exact .inr (.inl ⟨low, high⟩)
    · exact .inr (.inr rfl)
  exact small_of_ascii (by omega) (by omega)

theorem inRun_classes : ∀ k ∈ keywords, k.inRun = isDigit ∨ k.inRun = isHexOrDash ∨ k.inRun = isHex := by
  simp [keywords]

theorem small_of_inRun {k : Keyword} (hk : k ∈ keywords) {c : Char} (h : k.inRun c = true) : Small c := by
  rcases inRun_classes k hk with same | same | same
  · exact small_of_isDigit (same ▸ h)
  · exact small_of_isHexOrDash (same ▸ h)
  · exact small_of_isHexOrDash (Bool.or_eq_true_iff.mpr (.inl (same ▸ h)))

theorem small_chars {k : Keyword} (hk : k ∈ keywords) : ∀ c ∈ k.chars, Small c := by
  obtain ⟨v, same, lower⟩ := (keywords_lawful hk).spelled
  intro c hc
  rw [same] at hc
  rcases List.mem_append.mp hc with letter | mark
  · exact small_of_isLower (lower c letter)
  · rw [List.mem_singleton.mp mark]
    decide

theorem ends_lower {b : List Char} (hb : Ends b) (noSigma : 'Σ' ∉ b) : Ends (lower b) := by
  rw [lower_eq_flatMap noSigma]
  cases b with
  | nil => exact hb
  | cons c b =>
      have same : lowerChar c = [c] := by rcases hb.head with rfl | rfl <;> decide
      rw [List.flatMap_cons, same]
      exact hb

theorem opens_lower {a : List Char} (ha : Opens a) (noSigma : 'Σ' ∉ a) : Opens (lower a) := by
  rw [lower_eq_flatMap noSigma]
  rcases ha.eq_nil_or_concat with rfl | ⟨a, rfl⟩
  · exact ha
  · have same : lowerChar '/' = ['/'] := by decide
    rw [List.flatMap_append, List.flatMap_singleton, same]
    exact opens_concat _

/-- The keywords of identifiers with what their runs hold; those of requests and responses count only at
the head of a path segment. -/
inductive Identifies (before : String) : String → (Char → Bool) → Prop
  | numbered {k} : k ∈ ["processor_", "resourcegroup_", "application_", "inbound_", "outbound_"] →
      Identifies before k isDigit
  | exported : Identifies before "itg_" isHexOrDash
  | message {k} : k ∈ ["req_", "res_"] → Opens before.toList → Identifies before k isHex

theorem Identifies.keyword {a k : String} {inRun : Char → Bool} (h : Identifies a k inRun) :
    ∃ w ∈ keywords, w.word = k ∧ w.inRun = inRun ∧ w.Free a.toList := by
  cases h with
  | numbered member =>
      refine ⟨⟨fun _ => false, k, isDigit⟩, ?_, rfl, rfl, .inl fun _ => rfl⟩
      simp only [List.mem_cons, List.not_mem_nil, or_false] at member
      rcases member with rfl | rfl | rfl | rfl | rfl <;> simp [keywords]
  | exported => exact ⟨⟨fun _ => false, "itg_", isHexOrDash⟩, by simp [keywords], rfl, rfl, .inl fun _ => rfl⟩
  | message member opens =>
      refine ⟨⟨Char.isAlphanum, k, isHex⟩, ?_, rfl, rfl, .inr opens⟩
      simp only [List.mem_cons, List.not_mem_nil, or_false] at member
      rcases member with rfl | rfl <;> simp [keywords]

def IsRun (inRun : Char → Bool) (d : String) : Prop := d ≠ "" ∧ ∀ c ∈ d.toList, inRun c = true

instance (inRun : Char → Bool) (d : String) : Decidable (IsRun inRun d) :=
  decidable_of_iff (d ≠ "" ∧ d.toList.all inRun = true) (by rw [IsRun, List.all_eq_true])

/-- Two identifiers that are generated anew in the same place of a path have the same key. -/
theorem pathKey_regenerated {a k d₁ d₂ b : String} {inRun : Char → Bool} (keyword : Identifies a k inRun)
    (run₁ : IsRun inRun d₁) (run₂ : IsRun inRun d₂) (ends : Ends b.toList) (ha : 'Σ' ∉ a.toList)
    (hb : 'Σ' ∉ b.toList) : pathKey (a ++ k ++ d₁ ++ b) = pathKey (a ++ k ++ d₂ ++ b) := by
  obtain ⟨w, member, rfl, rfl, free⟩ := keyword.keyword
  have start : w.Free (lower a.toList) := free.imp_right fun opens => opens_lower opens ha
  have lowered {d : String} (run : IsRun w.inRun d) : lower (a ++ w.word ++ d ++ b).toList =
      lower a.toList ++ (w.chars ++ d.toList ++ lower b.toList) := by
    have small : ∀ c ∈ w.chars ++ d.toList, Small c := by
      intro c hc
      rcases List.mem_append.mp hc with hc | hc
      · exact small_chars member c hc
      · exact small_of_inRun member (run.2 c hc)
    have noSigma : 'Σ' ∉ w.chars ++ d.toList := fun hc => (small _ hc).1 rfl
    have spread : (a ++ w.word ++ d ++ b).toList = a.toList ++ (w.chars ++ d.toList ++ b.toList) := by
      simp only [String.toList_append, Keyword.chars, List.append_assoc]
    have rest : 'Σ' ∉ w.chars ++ d.toList ++ b.toList := by
      rw [List.mem_append]
      exact not_or.mpr ⟨noSigma, hb⟩
    rw [spread, lower_append ha rest, lower_append noSigma hb, lower_eq_self small]
  have some {d : String} (run : IsRun w.inRun d) : d.toList ≠ [] := by
    simpa [String.toList_eq_nil_iff] using run.1
  have rules := applyRules_identifier member start (ends_lower ends hb) (some run₁) run₁.2 (some run₂) run₂.2
  rw [pathKey, pathKey, keyPass, keyPass, lowered run₁, lowered run₂, rules]

theorem pathKey_regenerated_request :
    Identifies "icspackage/Project/processor_12/" "req_" isHex ∧ IsRun isHex "ab12" ∧ IsRun isHex "0" ∧
      pathKey ("icspackage/Project/processor_12/" ++ "req_" ++ "ab12" ++ ".xsl") =
        pathKey ("icspackage/Project/processor_12/" ++ "req_" ++ "0" ++ ".xsl") := by
  have keyword : Identifies "icspackage/Project/processor_12/" "req_" isHex :=
    .message (by decide) (by decide)
  have long : IsRun isHex "ab12" := by decide
  have short : IsRun isHex "0" := by decide
  exact ⟨keyword, long, short, pathKey_regenerated keyword long short (by decide) (by decide)
    (by decide)⟩

end ExportDiff.Noise
