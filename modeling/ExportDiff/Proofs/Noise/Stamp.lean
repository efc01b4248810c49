/- The values of stamps are noise: XML contents that differ in one only are never reported. -/
import ExportDiff.Noise.Content
import ExportDiff.Proofs.Change.FileDiff
import ExportDiff.Proofs.Text.Replace
import Mathlib.Algebra.Ring.Parity

namespace ExportDiff.Noise
open Artifact Change Snapshot Text

def stampNames : List String := ["timestamp", "createdTime", "modifiedTime", "lastUpdatedTime"]

/-- What stands before the value of a stamp. -/
def label (name : String) : List Char := name.toList ++ ['=']

theorem xmlRules_eq : xmlRules = stampNames.map stampRule ++ xmlRules.drop 4 := rfl

theorem stampNames_clear : ∀ n ∈ stampNames, '"' ∉ label n := by decide

theorem label_suffix : ∀ n ∈ stampNames, ∀ t ∈ stampNames, label n <:+ label t → n = t := by decide

theorem eq_of_label_suffix {n t : String} (hn : n ∈ stampNames) (ht : t ∈ stampNames) {p : List Char}
    (h : label n <:+ p) (h' : label t <:+ p) : n = t := by
  rcases List.suffix_or_suffix_of_suffix h h' with shorter | longer
  · exact label_suffix n hn t ht shorter
  · exact (label_suffix t ht n hn longer).symm

section
variable {n t : String} {p q r s : List Char}

theorem stamp_matchAt (before : Option Char) (s : List Char) :
    (stampRule n).pattern.matchAt before s =
      matchPieces [.text (n ++ "=\""), .gap (isNot '"'), .text "\""] s := by
  rw [stampRule, Pattern.of, Pattern.matchAt_single]
  cases before <;> rfl

theorem stamp_opening : (n ++ "=\"").toList = label n ++ ['"'] := by
  rw [String.toList_append, label, List.append_assoc]
  rfl

/-- No stamp begins where something else stands before the next quote. -/
theorem stamp_not_here (hn : n ∈ stampNames) (hp : '"' ∉ p) (other : p ≠ label n) (before : Option Char) :
    (stampRule n).pattern.matchAt before (p ++ '"' :: s) = none := by
  rw [stamp_matchAt, matchPieces_text_eq_none]
  rintro ⟨u, same⟩
  rw [stamp_opening, List.append_assoc] at same
  exact other (before_first (stampNames_clear n hn) hp same).symm

theorem stamp_before (m : Nat) (before : Option Char) (s : List Char) :
    (stampRule n).pattern.replaceFrom (stampRule n).replacement.toList m before s =
      (stampRule n).pattern.replaceFrom (stampRule n).replacement.toList m none s := by
  cases s with
  | nil => cases m <;> rfl
  | cons c s =>
      cases m with
      | succ m => rfl
      | zero => rw [Pattern.replaceFrom, Pattern.replaceFrom, stamp_matchAt, stamp_matchAt]

theorem gap_quote (hq : '"' ∉ q) : (q ++ '"' :: r).takeWhile (isNot '"') = q ∧
    (q ++ '"' :: r).dropWhile (isNot '"') = '"' :: r := by
  have all : ∀ c ∈ q, isNot '"' c = true := by
    intro c hc
    exact bne_iff_ne.mpr fun same => hq (same ▸ hc)
  rw [List.takeWhile_append_of_pos all, List.dropWhile_append_of_pos all]
  exact ⟨List.append_nil q, rfl⟩

/-- Up to the next quote a text stays, unless a stamp's label stands there. -/
theorem stamp_pass (hn : n ∈ stampNames) (hp : '"' ∉ p) (last : ¬ label n <:+ p) :
    (stampRule n).apply (p ++ '"' :: s) = p ++ '"' :: (stampRule n).apply s := by
  have unmatched : ∀ x, x ≠ [] → x <:+ p ++ ['"'] → ∀ before,
      (stampRule n).pattern.matchAt before (x ++ s) = none := by
    intro x some suffix before
    rcases List.suffix_concat_iff.mp suffix with none | ⟨y, rfl, inner⟩
    · exact absurd none some
    · rw [List.append_assoc]
      exact stamp_not_here hn (fun hy => hp (inner.subset hy)) (fun same => last (same ▸ inner)) before
  have same : p ++ '"' :: s = p ++ ['"'] ++ s := by rw [List.append_assoc, List.singleton_append]
  rw [Rule.apply, Pattern.replaceAll, same, Pattern.replaceFrom_unmatched unmatched, stamp_before,
    List.append_assoc]
  rfl

theorem stamp_take (hn : n ∈ stampNames) (hp : '"' ∉ p) (hq : '"' ∉ q) (last : label n <:+ p) :
    (stampRule n).apply (p ++ '"' :: (q ++ '"' :: r)) = p ++ '"' :: '"' :: (stampRule n).apply r := by
  obtain ⟨x, rfl⟩ := last
  have unmatched : ∀ y, y ≠ [] → y <:+ x → ∀ before,
      (stampRule n).pattern.matchAt before (y ++ (label n ++ '"' :: (q ++ '"' :: r))) = none := by
    intro y some suffix before
    rw [← List.append_assoc]
    refine stamp_not_here hn (fun hy => hp ?_) (fun same => some (List.append_left_eq_self.mp same)) before
    exact (List.mem_append.mp hy).elim (fun h => List.mem_append_left _ (suffix.subset h)) (List.mem_append_right x)
  have split : label n ++ '"' :: (q ++ '"' :: r) = (n ++ "=\"").toList ++ q ++ ['"'] ++ r := by
    simp only [stamp_opening, List.append_assoc, List.cons_append, List.nil_append]
  have here : (stampRule n).pattern.matchAt x.getLast? ((n ++ "=\"").toList ++ q ++ ['"'] ++ r) =
      some (Match.after (n ++ "=\"").toList.length (Match.after q.length ⟨1, [], r⟩)) := by
    rw [stamp_matchAt, List.append_assoc, List.append_assoc, List.singleton_append, matchPieces_text_append,
      matchPieces, (gap_quote hq).1, (gap_quote hq).2]
    rfl
  have size : (Match.after (n ++ "=\"").toList.length (Match.after q.length ⟨1, [], r⟩)).length =
      ((n ++ "=\"").toList ++ q ++ ['"']).length := by
    simp only [Match.after, List.length_append, List.length_singleton, Nat.add_assoc]
  have replaced := Pattern.replaceFrom_matched (stampRule n).replacement.toList here size
    (List.append_ne_nil_of_right_ne_nil _ (List.cons_ne_nil _ _))
  have fresh : (stampRule n).replacement.toList = label n ++ ['"', '"'] := by
    rw [stampRule, String.toList_append, label, List.append_assoc]
    rfl
  rw [Rule.apply, Pattern.replaceAll, List.append_assoc, Pattern.replaceFrom_unmatched unmatched, split,
    Option.or_none, replaced, stamp_before]
  change x ++ ((stampRule n).replacement.toList ++ (stampRule n).apply r) = _
  rw [fresh]
  simp only [List.append_assoc, List.cons_append, List.nil_append]

/-- What a stamp's rule makes of a text up to its second quote. -/
theorem stamp_apply (hn : n ∈ stampNames) (hp : '"' ∉ p) (hq : '"' ∉ q) (last : ¬ label n <:+ q) :
    (stampRule n).apply (p ++ '"' :: (q ++ '"' :: r)) =
      p ++ '"' :: ((if label n <:+ p then [] else q) ++ '"' :: (stampRule n).apply r) := by
  split
  case isTrue here => exact stamp_take hn hp hq here
  case isFalse there => rw [stamp_pass hn hp there, stamp_pass hn hq last]

end

/-- What a pair of quotes may hold: no quote, and no label of a stamp at the end. -/
def Plain (q : List Char) : Prop := '"' ∉ q ∧ ∀ n ∈ stampNames, ¬ label n <:+ q

theorem plain_nil : Plain [] := ⟨List.not_mem_nil, fun n _ suffix => by
  have := List.suffix_nil.mp suffix
  rw [label] at this
  exact List.append_ne_nil_of_right_ne_nil _ (List.cons_ne_nil _ _) this⟩

/-- Two texts, paired quote by quote, that differ in the value of one stamp. -/
inductive Differ (t : String) : List Char → List Char → Prop
  | here {p v w r} : '"' ∉ p → label t <:+ p → Plain v → Plain w →
      Differ t (p ++ '"' :: (v ++ '"' :: r)) (p ++ '"' :: (w ++ '"' :: r))
  | later {p q s u} : '"' ∉ p → Plain q → Differ t s u →
      Differ t (p ++ '"' :: (q ++ '"' :: s)) (p ++ '"' :: (q ++ '"' :: u))

section
variable {n t : String} {s u : List Char}

theorem Differ.apply_other (hn : n ∈ stampNames) (ht : t ∈ stampNames) (other : n ≠ t) (h : Differ t s u) :
    Differ t ((stampRule n).apply s) ((stampRule n).apply u) := by
  induction h with
  | @here p v w r hp last hv hw =>
      have elsewhere : ¬ label n <:+ p := fun suffix => other (eq_of_label_suffix hn ht suffix last)
      rw [stamp_apply hn hp hv.1 (hv.2 n hn), stamp_apply hn hp hw.1 (hw.2 n hn), if_neg elsewhere, if_neg elsewhere]
      exact .here hp last hv hw
  | later hp hq _ ih =>
      rw [stamp_apply hn hp hq.1 (hq.2 n hn), stamp_apply hn hp hq.1 (hq.2 n hn)]
      split
      case isTrue => exact .later hp plain_nil ih
      case isFalse => exact .later hp hq ih

theorem Differ.apply_own (ht : t ∈ stampNames) (h : Differ t s u) :
    (stampRule t).apply s = (stampRule t).apply u := by
  induction h with
  | here hp last hv hw =>
      rw [stamp_apply ht hp hv.1 (hv.2 t ht), stamp_apply ht hp hw.1 (hw.2 t ht), if_pos last, if_pos last]
  | later hp hq _ ih =>
      rw [stamp_apply ht hp hq.1 (hq.2 t ht), stamp_apply ht hp hq.1 (hq.2 t ht), ih]

theorem Differ.applyRules {names : List String} (known : ∀ n ∈ names, n ∈ stampNames) (ht : t ∈ names)
    (h : Differ t s u) : applyRules (names.map stampRule) s = applyRules (names.map stampRule) u := by
  induction names generalizing s u with
  | nil => exact nomatch ht
  | cons n names ih =>
      obtain ⟨hn, rest⟩ := List.forall_mem_cons.mp known
      by_cases same : n = t
      · subst same
        exact congrArg (Noise.applyRules (names.map stampRule)) (h.apply_own hn)
      · have later : t ∈ names := (List.mem_cons.mp ht).resolve_left (Ne.symm same)
        exact ih rest later (h.apply_other hn (rest t later) same)

end

/-- No quotes are left open, and every stamp in the text begins outside of quotes. -/
def OutsideQuotes (a : List Char) : Prop :=
  Even (a.count '"') ∧ ∀ n ∈ stampNames, ∀ x y, a = x ++ (n ++ "=\"").toList ++ y → Even (x.count '"')

theorem outsideQuotes_iff (a : List Char) : OutsideQuotes a ↔ Even (a.count '"') ∧
    ∀ i ∈ List.range (a.length + 1), ∀ n ∈ stampNames, (n ++ "=\"").toList <+: a.drop i → Even ((a.take i).count '"') := by
  refine and_congr_right fun _ => ⟨fun begins i _ n hn here => ?_, fun begins n hn x y same => ?_⟩
  · obtain ⟨y, rest⟩ := here
    refine begins n hn (a.take i) y ?_
    rw [List.append_assoc, rest, List.take_append_drop]
  · have here := begins x.length (by rw [List.mem_range, same]; simp only [List.length_append]; omega) n hn
    rw [same, List.append_assoc, List.drop_left, List.take_left] at here
    exact here (List.prefix_append _ y)

instance (a : List Char) : Decidable (OutsideQuotes a) := decidable_of_iff' _ (outsideQuotes_iff a)

def IsValue (v : String) : Prop := '"' ∉ v.toList ∧ '=' ∉ v.toList

instance (v : String) : Decidable (IsValue v) := inferInstanceAs (Decidable (_ ∧ _))

theorem IsValue.plain {v : String} (hv : IsValue v) : Plain v.toList :=
  ⟨hv.1, fun _ _ suffix => hv.2 (suffix.subset (List.mem_append_right _ (List.mem_singleton_self '=')))⟩

theorem count_quoted {p q : List Char} (hp : '"' ∉ p) (hq : '"' ∉ q) (r : List Char) :
    (p ++ '"' :: (q ++ '"' :: r)).count '"' = r.count '"' + 2 := by
  rw [List.count_append, List.count_cons_self, List.count_append, List.count_cons_self,
    List.count_eq_zero_of_not_mem hp, List.count_eq_zero_of_not_mem hq]
  omega

/-- A text that leaves no quotes open is free of quotes, or begins with a pair of them and leaves none
open behind it. -/
theorem OutsideQuotes.pair {a : List Char} (ha : OutsideQuotes a) (quote : '"' ∈ a) :
    ∃ p q r, a = p ++ '"' :: (q ++ '"' :: r) ∧ '"' ∉ p ∧ Plain q ∧ OutsideQuotes r := by
  obtain ⟨p, rest, rfl, hp⟩ := List.eq_append_cons_of_mem quote
  have second : '"' ∈ rest := by
    by_contra none
    have even := ha.1
    rw [List.count_append, List.count_cons_self, List.count_eq_zero_of_not_mem hp,
      List.count_eq_zero_of_not_mem none] at even
    exact absurd even (by decide)
  obtain ⟨q, r, rfl, hq⟩ := List.eq_append_cons_of_mem second
  obtain ⟨even, begins⟩ := ha
  rw [count_quoted hp hq] at even
  refine ⟨p, q, r, rfl, hp, ⟨hq, fun n hn suffix => ?_⟩, ?_, fun n hn x y same => ?_⟩
  · -- A stamp that ends here would begin behind the first quote.
    obtain ⟨z, rfl⟩ := suffix
    have inside := begins n hn (p ++ '"' :: z) r (by
      rw [stamp_opening]
      simp only [List.append_assoc, List.cons_append, List.nil_append])
    have hz : '"' ∉ z := fun hz => hq (List.mem_append_left _ hz)
    rw [List.count_append, List.count_cons_self, List.count_eq_zero_of_not_mem hp,
      List.count_eq_zero_of_not_mem hz] at inside
    exact absurd inside (by decide)
  · exact (Nat.even_add.mp even).mpr even_two
  · have shifted := begins n hn (p ++ '"' :: (q ++ '"' :: x)) y (by
      rw [same]
      simp only [List.append_assoc, List.cons_append])
    rw [count_quoted hp hq] at shifted
    exact (Nat.even_add.mp shifted).mpr even_two

theorem differ_of_outsideQuotes {t : String} (ht : t ∈ stampNames) {a v w b : List Char} (ha : OutsideQuotes a)
    (hv : Plain v) (hw : Plain w) :
    Differ t (a ++ (label t ++ '"' :: (v ++ '"' :: b))) (a ++ (label t ++ '"' :: (w ++ '"' :: b))) := by
  induction size : a.length using Nat.strong_induction_on generalizing a with
  | _ m ih =>
      by_cases quote : '"' ∈ a
      · obtain ⟨p, q, r, rfl, hp, hq, hr⟩ := ha.pair quote
        have shorter : r.length < m := by
          rw [← size, List.length_append, List.length_cons, List.length_append, List.length_cons]
          omega
        have rest := ih _ shorter hr rfl
        rw [List.append_assoc, List.cons_append, List.append_assoc, List.cons_append, List.append_assoc p,
          List.cons_append, List.append_assoc q, List.cons_append]
        exact .later hp hq rest
      · have clear : '"' ∉ a ++ label t := by
          rw [List.mem_append]
          exact not_or.mpr ⟨quote, stampNames_clear t ht⟩
        rw [← List.append_assoc, ← List.append_assoc]
        exact .here clear (List.suffix_append a (label t)) hv hw

def stamped (a t v b : String) : String := a ++ t ++ "=\"" ++ v ++ "\"" ++ b

theorem toList_stamped (a t v b : String) :
    (stamped a t v b).toList = a.toList ++ (label t ++ '"' :: (v.toList ++ '"' :: b.toList)) := by
  have opening : "=\"".toList = ['=', '"'] := rfl
  have closing : "\"".toList = ['"'] := rfl
  simp only [stamped, String.toList_append, opening, closing, label, List.append_assoc, List.cons_append,
    List.nil_append]

theorem bareXml_stamped {a t v w : String} (ht : t ∈ stampNames) (ha : OutsideQuotes a.toList) (hv : IsValue v)
    (hw : IsValue w) (b : String) : bareXml (stamped a t v b) = bareXml (stamped a t w b) := by
  have differ := differ_of_outsideQuotes ht (b := b.toList) ha hv.plain hw.plain
  have rules (s : List Char) : applyRules xmlRules s =
      applyRules (xmlRules.drop 4) (applyRules (stampNames.map stampRule) s) := by
    rw [xmlRules_eq, applyRules, List.foldl_append]
    rfl
  rw [bareXml, bareXml, toList_stamped, toList_stamped, rules, rules, differ.applyRules (fun _ hn => hn) ht]

/-- The value of a stamp is noise: XML contents that differ in it only are the same without noise, and so a
comparison in which they are the last of their key on either side has no item for that key. -/
theorem stamps_not_reported {a t v w b : String} (ht : t ∈ stampNames) (ha : OutsideQuotes a.toList)
    (hv : IsValue v) (hw : IsValue w) :
    bareXml (stamped a t v b) = bareXml (stamped a t w b) ∧
      ∀ (lineLimit : Int) (left right : List FileRecord) (key : String) (l r : FileRecord),
        lastFile? left key = some l → lastFile? right key = some r →
        isXml l.path = true → isXml r.path = true →
        l.content = some (stamped a t v b) → r.content = some (stamped a t w b) →
        ∀ i ∈ (compareFiles lineLimit left right).items, i.key ≠ key := by
  have bare := bareXml_stamped ht ha hv hw b
  refine ⟨bare, ?_⟩
  intro lineLimit left right key l r lastLeft lastRight xmlLeft xmlRight old new i member same
  have change := reported_iff.mp ⟨i, member, same, rfl, rfl, rfl⟩
  rw [lastLeft, lastRight] at change
  refine change.differ.2 ⟨_, _, old, new, ?_⟩
  rw [bareContent, if_pos xmlLeft, bareContent, if_pos xmlRight, bare]

/-- A flow that was created at a given time, which stands behind an older stamp. -/
def createdFlow (hash time : String) : FileRecord :=
  ⟨"a/flow.xml", hash, 9, some (stamped "<flow id=\"7\" timestamp=\"1\" " "createdTime" time "/>")⟩

theorem created_again_not_reported :
    OutsideQuotes "<flow id=\"7\" timestamp=\"1\" ".toList ∧ IsValue "08:00" ∧ IsValue "" ∧
      ∀ i ∈ (compareFiles 50 [createdFlow "1" "08:00"] [createdFlow "2" ""]).items,
        i.key ≠ pathKey "a/flow.xml" := by
  have outside : OutsideQuotes "<flow id=\"7\" timestamp=\"1\" ".toList := by decide
  have old : IsValue "08:00" := by decide
  have new : IsValue "" := by decide
  have last (hash time : String) :
      lastFile? [createdFlow hash time] (pathKey "a/flow.xml") = some (createdFlow hash time) := by
    simp [lastFile?, createdFlow]
  have xml (hash time : String) : Artifact.isXml (createdFlow hash time).path = true := by
    change Artifact.isXml "a/flow.xml" = true
    decide
  exact ⟨outside, old, new,
    (stamps_not_reported (b := "/>") (by decide) outside old new).2 50 _ _ _ _ _
      (last "1" "08:00") (last "2" "") (xml _ _) (xml _ _) rfl rfl⟩

end ExportDiff.Noise
