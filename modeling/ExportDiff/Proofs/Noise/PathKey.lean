/- Every path has a key in normal form, which the passes reach and none of them changes. -/
import ExportDiff.Noise.PathKey
import ExportDiff.Proofs.Text.Blank
import ExportDiff.Proofs.Text.Lowercase
import ExportDiff.Proofs.Text.Pattern

namespace ExportDiff.Noise
open Text

/-- The weight of a character, where the capital that stands for an identifier counts as the small
one that it becomes. -/
def charMass (c : Char) : Nat := if c = 'x' ∨ c = 'X' then 1 else 2

def mass (s : List Char) : Nat := (s.map charMass).sum

theorem mass_cons (c : Char) (s : List Char) : mass (c :: s) = charMass c + mass s := by
  rw [mass, List.map_cons, List.sum_cons, mass]

theorem mass_append (s t : List Char) : mass (s ++ t) = mass s + mass t := by
  rw [mass, List.map_append, List.sum_append, mass, mass]

theorem charMass_pos (c : Char) : 0 < charMass c := by
  unfold charMass
  split <;> decide

theorem mass_pos {s : List Char} (h : s ≠ []) : 0 < mass s := by
  cases s with
  | nil => exact absurd rfl h
  | cons c s =>
      rw [mass_cons]
      exact Nat.add_pos_left (charMass_pos c) _

theorem weight_eq_mass {s : List Char} (h : 'X' ∉ s) : weight s = mass s := by
  induction s with
  | nil => rfl
  | cons c s ih =>
      obtain ⟨hc, hs⟩ := not_or.mp (mt List.mem_cons.mpr h)
      have same : charMass c = if c = 'x' then 1 else 2 := by simp [charMass, Ne.symm hc]
      rw [mass_cons, same, ← ih hs]
      rfl

theorem eq_or_mass_lt {s t : List Char} (h : s.Sublist t) : s = t ∨ mass s < mass t := by
  induction h with
  | slnil => exact .inl rfl
  | @cons s t c _ ih =>
      right
      have one := charMass_pos c
      rw [mass_cons]
      rcases ih with rfl | less
      · omega
      · omega
  | @cons_cons s t c _ ih =>
      rcases ih with rfl | less
      · exact .inl rfl
      · right
        rw [mass_cons, mass_cons]
        exact Nat.add_lt_add_left less _

/-- A rule takes more than it gives back, and gives back nothing new but the capital. -/
structure Rule.Tame (r : Rule) : Prop where
  lightens : r.pattern.Lightens r.replacement.toList charMass
  known : ∀ ps ∈ r.pattern.alternatives, ∀ t, Spells ps t → ∀ c ∈ r.replacement.toList, c ∈ t ∨ c = 'X'

theorem spells_keyword {keyword : String} {inRun : Char → Bool} {t : List Char}
    (h : Spells [.text keyword, .run inRun] t) :
    ∃ u, t = keyword.toList ++ u ∧ u ≠ [] ∧ ∀ c ∈ u, inRun c = true := by
  cases h with
  | cons hw h =>
      cases hw
      cases h with
      | cons hu h =>
          cases hu with
          | run some all =>
              cases h
              exact ⟨_, rfl, by simpa using some, by simpa using all⟩

theorem tame_keyword {notAfter : Char → Bool} (keyword : String) {inRun : Char → Bool}
    (hx : inRun 'x' = false) (hX : inRun 'X' = false) :
    Rule.Tame ⟨⟨notAfter, [[.text keyword, .run inRun]]⟩, keyword ++ "X"⟩ := by
  have fresh : (keyword ++ "X").toList = keyword.toList ++ ['X'] := by rw [String.toList_append]; rfl
  constructor
  · intro ps member t spelled
    rw [List.mem_singleton.mp member] at spelled
    obtain ⟨u, rfl, some, all⟩ := spells_keyword spelled
    change mass (keyword ++ "X").toList < mass (keyword.toList ++ u)
    rw [fresh, mass_append, mass_append]
    cases u with
    | nil => exact absurd rfl some
    | cons c u =>
        have hc := all c List.mem_cons_self
        have heavy : charMass c = 2 := by
          rw [charMass, if_neg]
          rintro (rfl | rfl)
          · rw [hx] at hc; exact nomatch hc
          · rw [hX] at hc; exact nomatch hc
        have light : mass ['X'] = 1 := rfl
        rw [light, mass_cons c, heavy]
        omega
  · intro ps member t spelled c hc
    rw [List.mem_singleton.mp member] at spelled
    obtain ⟨u, rfl, _⟩ := spells_keyword spelled
    rw [fresh] at hc
    exact (List.mem_append.mp hc).imp (List.mem_append_left u) List.mem_singleton.mp

theorem tame_removal {notAfter : Char → Bool} {ps : List Piece} (h : ∀ t, Spells ps t → t ≠ []) :
    Rule.Tame ⟨⟨notAfter, [ps]⟩, ""⟩ := by
  have fresh : "".toList = [] := rfl
  constructor
  · intro qs member t spelled
    rw [List.mem_singleton.mp member] at spelled
    exact mass_pos (h t spelled)
  · intro qs _ t _ c hc
    exact nomatch fresh ▸ hc

theorem spells_ne_nil {w : String} {ps : List Piece} {t : List Char} (hw : w.toList ≠ [])
    (h : Spells (.text w :: ps) t) : t ≠ [] := by
  cases h with
  | cons ht _ =>
      cases ht
      exact fun empty => hw (List.append_eq_nil_iff.mp empty).1

theorem idRules_tame : ∀ r ∈ idRules, r.Tame := by
  have digit : isDigit 'x' = false ∧ isDigit 'X' = false := by decide
  have hex : isHex 'x' = false ∧ isHex 'X' = false := by decide
  have dash : isHexOrDash 'x' = false ∧ isHexOrDash 'X' = false := by decide
  simp only [idRules, List.forall_mem_cons]
  exact ⟨tame_keyword _ digit.1 digit.2, tame_keyword _ digit.1 digit.2, tame_keyword _ digit.1 digit.2,
    tame_keyword _ digit.1 digit.2, tame_keyword _ digit.1 digit.2, tame_keyword _ dash.1 dash.2,
    tame_keyword _ hex.1 hex.2, tame_keyword _ hex.1 hex.2, List.forall_mem_nil _⟩

def versionPieces : List Piece :=
  [.text "_", .exactly 2 isDigit, .text ".", .exactly 2 isDigit, .text ".", .exactly 4 isDigit]

def versionRule : Rule := ⟨.of versionPieces, ""⟩

def copyRule : Rule := ⟨.of [.gap isBlank, .text "(", .run isDigit, .text ")"], ""⟩

theorem pathRules_eq : pathRules = [versionRule, copyRule] := rfl

theorem pathRules_tame : ∀ r ∈ pathRules, r.Tame := by
  simp only [pathRules, List.forall_mem_cons]
  refine ⟨tame_removal fun t h => spells_ne_nil (by decide) h, tame_removal fun t h => ?_,
    List.forall_mem_nil _⟩
  cases h with
  | cons _ h => exact List.append_ne_nil_of_right_ne_nil _ (spells_ne_nil (by decide) h)

/-- A step towards a normal form: a text that has a property stays, and any other gets lighter. -/
def Eases (P : List Char → Prop) (s t : List Char) : Prop := t = s ∧ P s ∨ mass t < mass s

theorem Eases.trans {P Q : List Char → Prop} {s t u : List Char} (hst : Eases P s t) (htu : Eases Q t u) :
    Eases (fun v => P v ∧ Q v) s u := by
  rcases hst with ⟨rfl, hp⟩ | less
  · exact htu.imp_left fun ⟨same, hq⟩ => ⟨same, hp, hq⟩
  · right
    rcases htu with ⟨rfl, _⟩ | further
    · exact less
    · exact Nat.lt_trans further less

theorem Eases.of_sublist {P : List Char → Prop} {s t : List Char} (h : t.Sublist s) (hp : t = s → P s) :
    Eases P s t := (eq_or_mass_lt h).imp_left fun same => ⟨same, hp same⟩

def Unmatched (rules : List Rule) (s : List Char) : Prop :=
  ∀ r ∈ rules, r.pattern.searchFrom none s = none

theorem applyRules_concat (rules : List Rule) (r : Rule) (s : List Char) :
    applyRules (rules ++ [r]) s = r.apply (applyRules rules s) := by
  rw [applyRules, List.foldl_append]
  rfl

theorem applyRules_eases {rules : List Rule} (tame : ∀ r ∈ rules, r.Tame) (s : List Char) :
    Eases (Unmatched rules) s (applyRules rules s) := by
  induction rules generalizing s with
  | nil => exact .inl ⟨rfl, List.forall_mem_nil _⟩
  | cons r rules ih =>
      obtain ⟨hr, hrules⟩ := List.forall_mem_cons.mp tame
      have first : Eases (fun t => r.pattern.searchFrom none t = none) s (r.apply s) :=
        (Pattern.replaceFrom_lightens hr.lightens none s).imp_left And.symm
      exact (first.trans (ih hrules (r.apply s))).imp_left fun ⟨same, here, rest⟩ =>
        ⟨same, List.forall_mem_cons.mpr ⟨here, rest⟩⟩

theorem mem_applyRules {rules : List Rule} (tame : ∀ r ∈ rules, r.Tame) {s : List Char} {c : Char}
    (hc : c ∈ applyRules rules s) : c ∈ s ∨ c = 'X' := by
  induction rules generalizing s with
  | nil => exact .inl hc
  | cons r rules ih =>
      obtain ⟨hr, hrules⟩ := List.forall_mem_cons.mp tame
      rcases ih hrules hc with before | rfl
      · exact Pattern.mem_replaceFrom hr.known before
      · exact .inr rfl

theorem collapseSlashes_sublist (s : List Char) : (collapseSlashes s).Sublist s := by
  induction s with
  | nil => exact .slnil
  | cons c s ih =>
      rw [collapseSlashes]
      split
      · exact ih.cons c
      · exact ih.cons_cons c

theorem collapseSlashes_append {s : List Char} (stop : s.head? ≠ some '/') (a : List Char) :
    collapseSlashes (a ++ s) = collapseSlashes a ++ collapseSlashes s := by
  induction a with
  | nil => rfl
  | cons c a ih =>
      have next : ((a ++ s).head? = some '/') = (a.head? = some '/') := by
        cases a with
        | nil => simpa using stop
        | cons d a => rfl
      simp only [List.cons_append, collapseSlashes, next]
      split
      · exact ih
      · rw [ih, List.cons_append]

theorem collapseSlashes_append_of_not_mem {a : List Char} (h : '/' ∉ a) (s : List Char) :
    collapseSlashes (a ++ s) = a ++ collapseSlashes s := by
  induction a with
  | nil => rfl
  | cons c a ih =>
      obtain ⟨hc, ha⟩ := not_or.mp (mt List.mem_cons.mpr h)
      rw [List.cons_append, collapseSlashes, if_neg (by simp [Ne.symm hc]), ih ha, List.cons_append]

theorem collapseSlashes_eq_self {s : List Char} (h : '/' ∉ s) : collapseSlashes s = s := by
  have alone := collapseSlashes_append_of_not_mem h []
  rwa [List.append_nil, collapseSlashes, List.append_nil] at alone

theorem no_double_slash {s : List Char} (h : collapseSlashes s = s) : ¬ ['/', '/'] <:+: s := by
  induction s with
  | nil => decide
  | cons c s ih =>
      rw [collapseSlashes] at h
      split at h
      · have shorter := (collapseSlashes_sublist s).length_le
        rw [h, List.length_cons] at shorter
        exact absurd shorter (Nat.not_succ_le_self _)
      · rename_i single
        rw [List.infix_cons_iff, not_or]
        refine ⟨fun start => single ?_, ih (List.cons.inj h).2⟩
        obtain ⟨rest, same⟩ := start
        obtain ⟨rfl, rfl⟩ := List.cons.inj same
        rfl

theorem collapseSlashes_eases (s : List Char) : Eases (fun t => ¬ ['/', '/'] <:+: t) s (collapseSlashes s) :=
  .of_sublist (collapseSlashes_sublist s) no_double_slash

theorem mass_lower {s : List Char} (h : ∀ c ∈ s, Small c ∨ c = 'X') : mass (lower s) = mass s := by
  have noSigma : 'Σ' ∉ s := fun hs => (h _ hs).elim (fun small => small.1 rfl) (by decide)
  rw [lower_eq_flatMap noSigma]
  clear noSigma
  induction s with
  | nil => rfl
  | cons c s ih =>
      obtain ⟨hc, hs⟩ := List.forall_mem_cons.mp h
      have one : mass (lowerChar c) = charMass c := by
        rcases hc with small | rfl
        · rw [small.2]
          rfl
        · rfl
      rw [List.flatMap_cons, mass_append, ih hs, one, mass_cons]

theorem Eases.lowered {P : List Char → Prop} {s t : List Char} (h : Eases P s t) (hs : ∀ c ∈ s, Small c)
    (ht : ∀ c ∈ t, Small c ∨ c = 'X') : Eases P s (lower t) := by
  rcases h with ⟨rfl, hp⟩ | less
  · exact .inl ⟨lower_eq_self hs, hp⟩
  · right
    rw [mass_lower ht]
    exact less

def Trimmed (s : List Char) : Prop :=
  (∀ c, s.head? = some c → isBlank c = false) ∧ ∀ c, s.getLast? = some c → isBlank c = false

theorem trim_eases (s : List Char) : Eases Trimmed s (trim s) := by
  refine .of_sublist (trim_sublist s) fun same => ?_
  rw [← same]
  exact ⟨fun _ => head?_trim, fun _ => getLast?_trim⟩

/-- What is true of a key: no rule applies to it, and it is tidy. -/
structure NormalKey (key : String) : Prop where
  unmatched : ∀ r ∈ idRules ++ pathRules, r.pattern.search key = none
  separators : ¬ ['/', '/'] <:+: key.toList
  small : lowercase key = key
  trimmed : Trimmed key.toList

/-- The passes over a path, counted, up to the first that changes nothing. -/
inductive Settles : List Char → List Char → Nat → Prop
  | done {p} : keyPass p = p → Settles p p 0
  | pass {p r n} : keyPass p ≠ p → Settles (keyPass p) r n → Settles p r (n + 1)

theorem Settles.fixed {p r : List Char} {n : Nat} (h : Settles p r n) : keyPass r = r := by
  induction h with
  | done same => exact same
  | pass _ _ ih => exact ih

theorem small_keyPass (p : List Char) : ∀ c ∈ keyPass p, Small c :=
  fun _ hc => small_of_mem_lower ((trim_sublist _).subset hc)

/-- In lower case, a pass leaves a normal key alone and makes any other path lighter. -/
theorem keyPass_eases {p : List Char} (hp : ∀ c ∈ p, Small c) :
    Eases (fun q => NormalKey (String.ofList q)) p (keyPass p) := by
  have start : lower p = p := lower_eq_self hp
  have rules : Eases _ p (applyRules pathRules (applyRules idRules p)) :=
    (applyRules_eases idRules_tame p).trans (applyRules_eases pathRules_tame _)
  have slashes : Eases _ p (collapseSlashes (applyRules pathRules (applyRules idRules p))) :=
    rules.trans (collapseSlashes_eases _)
  have known : ∀ c ∈ collapseSlashes (applyRules pathRules (applyRules idRules p)), Small c ∨ c = 'X' := by
    intro c hc
    rcases mem_applyRules pathRules_tame ((collapseSlashes_sublist _).subset hc) with inIds | capital
    · exact (mem_applyRules idRules_tame inIds).imp_left (hp c)
    · exact .inr capital
  rw [keyPass, start]
  refine ((slashes.lowered hp known).trans (trim_eases _)).imp_left ?_
  rintro ⟨same, ⟨⟨ids, paths⟩, separators⟩, trimmed⟩
  refine ⟨same, ?_⟩
  rw [← String.toList_ofList (l := p)] at ids paths separators trimmed start
  exact ⟨List.forall_mem_append.mpr ⟨ids, paths⟩, separators, by rw [lowercase, start, String.ofList_toList],
    trimmed⟩

theorem weight_keyPass (p : List Char) : weight (keyPass p) = mass (keyPass p) :=
  weight_eq_mass fun h => absurd (small_keyPass p _ h).2 (by decide)

theorem settle_settles {p : List Char} (hp : ∀ c ∈ p, Small c) :
    ∃ n ≤ weight p, Settles p (settle p) n := by
  have plain : weight p = mass p := weight_eq_mass fun h => absurd (hp _ h).2 (by decide)
  induction p using settle.induct with
  | case1 p lighter ih =>
      obtain ⟨n, bound, rest⟩ := ih (small_keyPass p) (weight_keyPass p)
      rw [settle, if_pos lighter]
      refine ⟨n + 1, Nat.lt_of_le_of_lt bound lighter, .pass ?_ rest⟩
      intro same
      rw [same] at lighter
      exact Nat.lt_irrefl _ lighter
  | case2 p heavy =>
      rw [settle, if_neg heavy]
      rcases keyPass_eases hp with ⟨same, _⟩ | lighter
      · rw [same]
        exact ⟨0, Nat.zero_le _, .done same⟩
      · rw [← weight_keyPass, ← plain] at lighter
        exact absurd lighter heavy

theorem settle_eq_self {p : List Char} (h : keyPass p = p) : settle p = p := by
  rw [settle, h, if_neg (Nat.lt_irrefl _)]

/-- The passes over a path come to an end, in no more passes than the first result weighs; the key
that they end in is normal, and it is its own key. -/
theorem pathKey_normal (path : String) :
    (∃ n ≤ weight (keyPass path.toList), Settles (keyPass path.toList) (pathKey path).toList n) ∧
      NormalKey (pathKey path) ∧ pathKey (pathKey path) = pathKey path := by
  have toList : (pathKey path).toList = settle (keyPass path.toList) := String.toList_ofList
  obtain ⟨n, bound, passes⟩ := settle_settles (small_keyPass path.toList)
  have fixed := passes.fixed
  rw [← toList] at passes fixed
  refine ⟨⟨n, bound, passes⟩, ?_, ?_⟩
  · have small := small_keyPass (pathKey path).toList
    rw [fixed] at small
    rcases keyPass_eases small with ⟨_, normal⟩ | lighter
    · rwa [String.ofList_toList] at normal
    · rw [fixed] at lighter
      exact absurd lighter (Nat.lt_irrefl _)
  · rw [pathKey, fixed, settle_eq_self fixed, String.ofList_toList]

end ExportDiff.Noise
