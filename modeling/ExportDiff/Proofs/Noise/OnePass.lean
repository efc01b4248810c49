/- One pass of the identifier rules leaves no identifier: what a rule puts in exposes none, neither of its own
keyword nor of another. -/
import ExportDiff.Proofs.Noise.Identifier
import ExportDiff.Proofs.Text.Bar

namespace ExportDiff.Noise
open Artifact Text

namespace Keyword

/-- The capital that stands for an identifier goes on no run, and the keyword may not follow it unless it may
follow anything. -/
structure Sealed (k : Keyword) : Prop where
  run : k.inRun 'X' = false
  follows : k.notAfter 'X' = false → ∀ c, k.notAfter c = false

/-- An identifier begins here. -/
def Begins (k : Keyword) (before : Option Char) (s : List Char) : Prop :=
  before.any k.notAfter = false ∧ ∃ c, k.chars ++ [c] <+: s ∧ k.inRun c = true

section
variable {e k : Keyword} {before before' : Option Char} {s x : List Char} {c : Char}

theorem begins_chars : k.Begins before (k.chars ++ s) ↔ before.any k.notAfter = false ∧ s.head?.any k.inRun = true := by
  rw [Begins]
  refine and_congr_right fun _ => ?_
  simp only [List.prefix_append_right_inj]
  cases s with
  | nil => simp
  | cons d s => simp

theorem matchAt_eq_none_iff : k.rule.pattern.matchAt before s = none ↔ ¬ k.Begins before s := by
  by_cases here : k.chars <+: s
  · obtain ⟨r, rfl⟩ := here
    rw [matchAt_chars, matchPieces_run, begins_chars]
    cases before.any k.notAfter <;> cases r.head?.any k.inRun <;> simp
  · rw [matchAt_elsewhere here]
    refine iff_of_true rfl fun ⟨_, c, start, _⟩ => here ?_
    exact (List.prefix_append k.chars [c]).trans start

/-- Nothing stands behind the underscore in a keyword. -/
theorem Lawful.not_infix (he : e.Lawful) (hk : k.Lawful) (c : Char) : ¬ k.chars ++ [c] <:+: e.chars := by
  rintro ⟨a, b, same⟩
  obtain ⟨v, spelled, lower⟩ := he.spelled
  obtain ⟨w, spelled', _⟩ := hk.spelled
  have inside := congrArg List.dropLast same
  rw [spelled, List.dropLast_concat, List.append_assoc, List.append_assoc, ← List.append_assoc,
    List.dropLast_append_of_ne_nil (by simp)] at inside
  have mark : '_' ∈ v := by
    rw [← inside, spelled']
    simp
  exact (ne_mark (lower _ mark)).1 rfl

theorem Sealed.lead_not_mem (sealed : k.Sealed) (hk : k.Lawful) (run : k.inRun c = true) : 'X' ∉ k.chars ++ [c] := by
  rw [List.mem_append, List.mem_singleton, not_or]
  refine ⟨hk.capital_not_mem, ?_⟩
  rintro rfl
  exact Bool.false_ne_true (sealed.run.symm.trans run)

/-- No identifier begins in what a rule puts in. -/
theorem Lawful.fresh_unmatched (he : e.Lawful) (hk : k.Lawful) (sealed : k.Sealed) (some : x ≠ [])
    (suffix : x <:+ e.chars ++ ['X']) (before : Option Char) (s : List Char) :
    k.rule.pattern.matchAt before (x ++ s) = none := by
  obtain rfl | ⟨v, rfl, inside⟩ := List.suffix_concat_iff.mp suffix
  · exact absurd rfl some
  refine matchAt_eq_none_iff.mpr fun ⟨_, c, start, run⟩ => he.not_infix hk c ?_
  rw [List.append_assoc] at start
  exact (prefix_of_not_mem (sealed.lead_not_mem hk run) start).isInfix.trans inside.isInfix

/-- Where an identifier begins in the result of a rule, one began in the text. -/
theorem Sealed.begins_of_replaced (sealed : k.Sealed) (hk : k.Lawful) (e : Keyword)
    (follows : before'.any k.notAfter = false → before.any k.notAfter = false)
    (h : k.Begins before' (e.rule.pattern.replaceFrom e.rule.replacement.toList 0 before s)) : k.Begins before s := by
  obtain ⟨free, c, start, run⟩ := h
  refine ⟨follows free, c, ?_, run⟩
  rw [replacement_eq] at start
  refine Pattern.prefix_of_replaceFrom (fun ps member t spelled => ?_) (sealed.lead_not_mem hk run) start
  obtain ⟨u, rfl, _⟩ := spells_keyword (List.mem_singleton.mp member ▸ spelled)
  exact List.prefix_append e.chars u

/-- A rule goes through a text by characters that it keeps and by matches that it replaces. -/
theorem Lawful.scan_induction (he : e.Lawful) {motive : Option Char → List Char → Prop}
    (nil : ∀ before, motive before [])
    (keep : ∀ before c s, e.rule.pattern.matchAt before (c :: s) = none → motive (some c) s → motive before (c :: s))
    (replace : ∀ before t s m, e.rule.pattern.matchAt before (t ++ s) = some m → m.length = t.length → t ≠ [] →
      motive t.getLast? s → motive before (t ++ s))
    (before : Option Char) (s : List Char) : motive before s := by
  induction size : s.length using Nat.strong_induction_on generalizing before s with
  | _ n ih =>
      cases s with
      | nil => exact nil before
      | cons c s =>
          cases here : e.rule.pattern.matchAt before (c :: s) with
          | none =>
              have shorter : s.length < n := by
                rw [← size, List.length_cons]
                exact Nat.lt_succ_self _
              exact keep before c s here (ih _ shorter (some c) s rfl)
          | some m =>
              obtain ⟨ps, member, t, split, length, spelled⟩ := Pattern.matchAt_of here
              obtain ⟨u, rfl, _⟩ := spells_keyword (List.mem_singleton.mp member ▸ spelled)
              have nonempty : e.chars ++ u ≠ [] := List.append_ne_nil_of_left_ne_nil he.ne_nil u
              have shorter : m.rest.length < n := by
                rw [← size, split, List.length_append]
                exact Nat.lt_add_of_pos_left (List.length_pos_iff.mpr nonempty)
              rw [split] at here ⊢
              exact replace before _ _ m here length.symm nonempty (ih _ shorter _ _ rfl)

/-- After a rule nothing is found that was not there before, and nothing of its own keyword. -/
theorem Lawful.searchFrom_replaced (he : e.Lawful) (hk : k.Lawful) (sealed : k.Sealed)
    (absent : k = e ∨ k.rule.pattern.searchFrom before s = none)
    (follows : before'.any k.notAfter = false → before.any k.notAfter = false) :
    k.rule.pattern.searchFrom before' (e.rule.pattern.replaceFrom e.rule.replacement.toList 0 before s) = none := by
  induction before, s using he.scan_induction generalizing before' with
  | nil before =>
      refine matchAt_eq_none_iff.mpr fun ⟨_, c, start, _⟩ => ?_
      exact absurd (List.prefix_nil.mp start) (List.append_ne_nil_of_right_ne_nil _ (List.cons_ne_nil c []))
  | keep before c s here ih =>
      have unmatched : k.rule.pattern.matchAt before (c :: s) = none := by
        rcases absent with rfl | clear
        · exact here
        · exact (Pattern.searchFrom_cons_eq_none.mp clear).1
      have later : k = e ∨ k.rule.pattern.searchFrom (some c) s = none :=
        absent.imp_right fun clear => (Pattern.searchFrom_cons_eq_none.mp clear).2
      have first := mt (sealed.begins_of_replaced hk e follows) (matchAt_eq_none_iff.mp unmatched)
      rw [Pattern.replaceFrom, here] at first ⊢
      exact Pattern.searchFrom_cons_eq_none.mpr ⟨matchAt_eq_none_iff.mpr first, ih later id⟩
  | replace before t s m here length nonempty ih =>
      have behind : t.getLast?.or before = t.getLast? := by
        rw [List.getLast?_eq_some_getLast nonempty, Option.some_or]
      have later : k = e ∨ k.rule.pattern.searchFrom t.getLast? s = none :=
        absent.imp_right fun clear => behind ▸ Pattern.searchFrom_of_append clear
      have capital : (e.chars ++ ['X']).getLast?.or before' = some 'X' := by rw [List.getLast?_concat, Option.some_or]
      rw [Pattern.replaceFrom_matched _ here length nonempty, replacement_eq]
      refine Pattern.searchFrom_unmatched (fun x some suffix before => he.fresh_unmatched hk sealed some suffix before _) ?_
      rw [capital, ← replacement_eq]
      refine ih later fun free => ?_
      cases t.getLast? with
      | none => rfl
      | some c => exact sealed.follows free c

end

end Keyword

theorem keywords_sealed {k : Keyword} (hk : k ∈ keywords) : k.Sealed := by
  have runs : keywords.all (fun k => !k.inRun 'X') = true := by decide
  refine ⟨by simpa using List.all_eq_true.mp runs k hk, fun free c => ?_⟩
  rcases notAfter_classes k hk with same | same
  · rw [same]
  · rw [same] at free
    exact absurd free (by decide)

theorem unmatched_applyRules {es : List Keyword} (lawful : ∀ e ∈ es, e.Lawful) (sealed : ∀ e ∈ es, e.Sealed)
    (s : List Char) : Unmatched (es.map Keyword.rule) (applyRules (es.map Keyword.rule) s) := by
  rw [Unmatched, List.forall_mem_map]
  induction es using List.reverseRecOn with
  | nil => exact List.forall_mem_nil _
  | append_singleton es e ih =>
      obtain ⟨earlier, here⟩ := List.forall_mem_append.mp lawful
      have he := here e List.mem_cons_self
      intro k hk
      have absent : k = e ∨ k.rule.pattern.searchFrom none (applyRules (es.map Keyword.rule) s) = none := by
        rcases List.mem_append.mp hk with before | own
        · exact .inr (ih earlier (fun e he => sealed e (List.mem_append_left _ he)) k before)
        · exact .inl (List.mem_singleton.mp own)
      rw [List.map_append, List.map_singleton, applyRules_concat]
      exact he.searchFrom_replaced (lawful k hk) (sealed k hk) absent id

theorem applyRules_of_unmatched {rules : List Rule} {s : List Char} (h : Unmatched rules s) : applyRules rules s = s := by
  induction rules with
  | nil => rfl
  | cons r rules ih =>
      obtain ⟨first, others⟩ := List.forall_mem_cons.mp h
      have stays : r.apply s = s := Pattern.replaceFrom_of_searchFrom first
      rw [applyRules, List.foldl_cons, stays]
      exact ih others

theorem unmatched_idRules (s : List Char) : Unmatched idRules (applyRules idRules s) := by
  rw [idRules_eq]
  exact unmatched_applyRules (fun _ => keywords_lawful) (fun _ => keywords_sealed) s

/-- After one pass of the rules no rule finds an identifier, so a content that is not XML loses its identifiers
at once. -/
theorem idRules_onePass :
    (∀ s : String, ∀ r ∈ idRules, r.pattern.search (String.ofList (applyRules idRules s.toList)) = none) ∧
      ∀ content path, isXml path = false → bareContent (bareContent content path) path = bareContent content path := by
  constructor
  · intro s r member
    rw [Pattern.search, String.toList_ofList]
    exact unmatched_idRules s.toList r member
  · intro content path plain
    rw [← String.toList_inj, toList_bareContent plain, toList_bareContent plain]
    exact applyRules_of_unmatched (unmatched_idRules content.toList)

/-- Identifiers that touch: a run goes on to the next keyword, or takes the dash before it. -/
def touchingIds : String := "req_abreq_12 itg_-res_0f application_7itg_9"

theorem idRules_onePass_touching :
    isXml "refs.json" = false ∧
      bareContent (bareContent touchingIds "refs.json") "refs.json" = bareContent touchingIds "refs.json" ∧
      bareContent touchingIds "refs.json" = "req_Xreq_12 itg_Xres_0f application_Xitg_X" := by
  have plain : isXml "refs.json" = false := by decide
  exact ⟨plain, idRules_onePass.2 touchingIds "refs.json" plain, by decide⟩

end ExportDiff.Noise
