/- Lower-casing gives small characters only, and leaves those alone. -/
import ExportDiff.Text.CharClass
import ExportDiff.Text.Lowercase
import Mathlib.Data.List.Basic

namespace ExportDiff.Text

/-- A character that is its own small form wherever it stands. -/
def Small (c : Char) : Prop := c ≠ 'Σ' ∧ lowerChar c = [c]

instance (c : Char) : Decidable (Small c) := inferInstanceAs (Decidable (_ ∧ _))

namespace CaseRun

def low (r : CaseRun) : Nat := (r.first + r.shift).toNat

def high (r : CaseRun) : Nat := (r.last + r.shift).toNat

/-- No small form of the one run is a capital of the other: the two lie apart, or they interleave. -/
def clears (r q : CaseRun) : Bool :=
  r.high.blt q.first || q.last.blt r.low ||
    q.stride.beq 2 && (r.stride.beq 2 || r.first.beq r.last) && ((r.low + q.first) % 2).beq 1

def settles (r : CaseRun) : Bool :=
  (-r.shift).toNat.ble r.first && (r.high.blt 0x130 || Nat.blt 0x130 r.low) && caseRuns.all r.clears

theorem caseRuns_settle : caseRuns.all settles = true := by decide +kernel

theorem covers_iff {r : CaseRun} {n : Nat} :
    r.covers n = true ↔ r.first ≤ n ∧ n ≤ r.last ∧ (n - r.first) % r.stride = 0 := by
  simp [covers, and_assoc]

theorem clears_iff {r q : CaseRun} : r.clears q = true ↔ r.high < q.first ∨ q.last < r.low ∨
    q.stride = 2 ∧ (r.stride = 2 ∨ r.first = r.last) ∧ (r.low + q.first) % 2 = 1 := by
  simp [clears, and_assoc, or_assoc]

theorem not_covers_of_clears {r q : CaseRun} (hr : (-r.shift).toNat ≤ r.first) (clear : r.clears q = true)
    {n : Nat} (hn : r.covers n = true) : q.covers (n + r.shift).toNat = false := by
  rw [Bool.eq_false_iff]
  intro hq
  obtain ⟨below, above, stride⟩ := covers_iff.mp hn
  obtain ⟨qbelow, qabove, qstride⟩ := covers_iff.mp hq
  rcases clears_iff.mp clear with apart | apart | ⟨two, single, parity⟩
  · unfold high at apart; omega
  · unfold low at apart; omega
  · unfold low at parity
    rw [two] at qstride
    rcases single with two | single
    · rw [two] at stride
      omega
    · omega

end CaseRun

/-- Neither a capital of a run nor the one capital whose small form has two characters. -/
def NoCapital (c : Char) : Prop := c ≠ 'İ' ∧ ∀ r ∈ caseRuns, r.covers c.toNat = false

instance (c : Char) : Decidable (NoCapital c) :=
  decidable_of_iff (c ≠ 'İ' ∧ caseRuns.all (fun r => !r.covers c.toNat) = true) (by simp [NoCapital])

theorem toLower_eq_self {c : Char} (h : ¬ (0x41 ≤ c.toNat ∧ c.toNat ≤ 0x5A)) : c.toLower = c := by
  exact dif_neg h

theorem NoCapital.small {c : Char} (h : NoCapital c) : Small c := by
  have uncovered : ∀ r ∈ caseRuns, ¬ r.covers c.toNat = true := fun r hr => by
    rw [h.2 r hr]
    exact Bool.false_ne_true
  constructor
  · rintro rfl
    have covered : ∃ r ∈ caseRuns, r.covers 'Σ'.toNat = true := List.any_eq_true.mp (by decide)
    obtain ⟨r, hr, here⟩ := covered
    exact uncovered r hr here
  · rw [lowerChar, if_neg h.1]
    split
    · have plain := uncovered ⟨0x41, 0x5A, 1, 32⟩ List.mem_cons_self
      rw [toLower_eq_self]
      rintro ⟨below, above⟩
      exact plain (CaseRun.covers_iff.mpr ⟨below, above, Nat.mod_one _⟩)
    · rw [List.find?_eq_none.mpr uncovered]

theorem toNat_ofNat (n : Nat) : (Char.ofNat n).toNat = n ∨ Char.ofNat n = '\x00' := by
  by_cases h : n.isValidChar
  · left
    rw [Char.ofNat, dif_pos h]
    rfl
  · right
    rw [Char.ofNat, dif_neg h]
    rfl

theorem noCapital_of_run {r : CaseRun} (hr : r ∈ caseRuns) {n : Nat} (hn : r.covers n = true) :
    NoCapital (Char.ofNat (n + r.shift).toNat) := by
  obtain ⟨⟨shift, dotted⟩, clear⟩ : ((-r.shift).toNat ≤ r.first ∧ (r.high < 0x130 ∨ 0x130 < r.low)) ∧
      ∀ q ∈ caseRuns, r.clears q = true := by
    simpa [CaseRun.settles] using List.all_eq_true.mp CaseRun.caseRuns_settle r hr
  rcases toNat_ofNat (n + r.shift).toNat with same | zero
  · refine ⟨?_, fun q hq => ?_⟩
    · intro eq
      rw [eq] at same
      obtain ⟨below, above, _⟩ := CaseRun.covers_iff.mp hn
      change 0x130 = _ at same
      unfold CaseRun.high CaseRun.low at dotted
      omega
    · rw [same]
      exact CaseRun.not_covers_of_clears shift (clear q hq) hn
  · rw [zero]
    decide

theorem toLower_of_capital {c : Char} (h : 0x41 ≤ c.toNat ∧ c.toNat ≤ 0x5A) :
    c.toLower = Char.ofNat (c.toNat + 32) := by
  have small : (c.val + 32).toNat = c.toNat + 32 := by
    rw [UInt32.toNat_add]
    change (c.toNat + 32) % 2 ^ 32 = c.toNat + 32
    exact Nat.mod_eq_of_lt (by omega)
  have shifted : c.toLower.toNat = (c.val + 32).toNat := congrArg Char.toNat (dif_pos h)
  rw [← Char.ofNat_toNat c.toLower, shifted, small]

/-- Among the runs, only that of the letters A to Z reaches into ASCII. -/
theorem ascii_runs : caseRuns.all (fun r => 0x41 ≤ r.first && r.last ≤ 0x5A || 0x80 ≤ r.first) = true := by
  decide

theorem noCapital_toLower {c : Char} (ascii : c.toNat < 0x80) : NoCapital c.toLower := by
  by_cases capital : 0x41 ≤ c.toNat ∧ c.toNat ≤ 0x5A
  · rw [toLower_of_capital capital]
    exact noCapital_of_run (r := ⟨0x41, 0x5A, 1, 32⟩) List.mem_cons_self
      (CaseRun.covers_iff.mpr ⟨capital.1, capital.2, Nat.mod_one _⟩)
  · rw [toLower_eq_self capital]
    refine ⟨?_, fun r hr => ?_⟩
    · rintro rfl
      exact absurd ascii (by decide)
    · rw [Bool.eq_false_iff]
      intro covered
      obtain ⟨below, above, _⟩ := CaseRun.covers_iff.mp covered
      have outside : 0x41 ≤ r.first ∧ r.last ≤ 0x5A ∨ 0x80 ≤ r.first := by
        simpa using List.all_eq_true.mp ascii_runs r hr
      omega

theorem small_of_ascii {c : Char} (ascii : c.toNat < 0x80) (h : ¬ (0x41 ≤ c.toNat ∧ c.toNat ≤ 0x5A)) :
    Small c := by
  rw [← toLower_eq_self h]
  exact (noCapital_toLower ascii).small

theorem small_of_isLower {c : Char} (h : c.isLower = true) : Small c := by
  obtain ⟨first, last⟩ := Bool.and_eq_true_iff.mp h
  have low : 0x61 ≤ c.toNat := of_decide_eq_true first
  have high : c.toNat ≤ 0x7A := of_decide_eq_true last
  exact small_of_ascii (by omega) (by omega)

/-- No run of digits reaches into a run of capitals, or to the capital whose small form has two
characters. -/
theorem digitRanges_clear : digitRanges.all (fun d => (d.2.blt 0x130 || Nat.blt 0x130 d.1) &&
    caseRuns.all fun r => d.2.blt r.first || r.last.blt d.1) = true := by decide

theorem small_of_isDigit {c : Char} (h : isDigit c = true) : Small c := by
  obtain ⟨d, hd, inside⟩ := List.any_eq_true.mp h
  obtain ⟨below, above⟩ : d.1 ≤ c.toNat ∧ c.toNat ≤ d.2 := by simpa using inside
  obtain ⟨dotted, apart⟩ : (d.2 < 0x130 ∨ 0x130 < d.1) ∧ ∀ r ∈ caseRuns, d.2 < r.first ∨ r.last < d.1 := by
    simpa using List.all_eq_true.mp digitRanges_clear d hd
  refine NoCapital.small ⟨?_, fun r hr => ?_⟩
  · rintro rfl
    change d.1 ≤ 0x130 at below
    change 0x130 ≤ d.2 at above
    omega
  · rw [Bool.eq_false_iff]
    intro covered
    obtain ⟨first, last, _⟩ := CaseRun.covers_iff.mp covered
    have := apart r hr
    omega

theorem small_of_mem_lowerChar {c d : Char} (hd : d ∈ lowerChar c) : Small d := by
  rw [lowerChar] at hd
  split at hd
  · have both : NoCapital 'i' ∧ NoCapital '\u0307' := by decide
    rcases List.mem_pair.mp hd with rfl | rfl
    · exact both.1.small
    · exact both.2.small
  · rename_i dotted
    split at hd
    · rename_i ascii
      rw [List.mem_singleton.mp hd]
      exact (noCapital_toLower ascii).small
    · split at hd
      · rename_i r found
        have covered : r.covers c.toNat = true := by simpa using List.find?_some found
        rw [List.mem_singleton.mp hd]
        exact (noCapital_of_run (List.mem_of_find?_eq_some found) covered).small
      · rename_i found
        rw [List.mem_singleton.mp hd]
        refine NoCapital.small ⟨dotted, fun r hr => ?_⟩
        simpa using List.find?_eq_none.mp found r hr

theorem small_lowerSigma (afterCased : Bool) (rest : List Char) : Small (lowerSigma afterCased rest) := by
  have both : Small 'ς' ∧ Small 'σ' := by decide
  rw [lowerSigma]
  split
  · exact both.1
  · exact both.2

theorem small_of_mem_lowerFrom {b : Bool} {s : List Char} {d : Char} (hd : d ∈ lowerFrom b s) : Small d := by
  induction s generalizing b with
  | nil => exact nomatch hd
  | cons c s ih =>
      rw [lowerFrom] at hd
      rcases List.mem_append.mp hd with hd | hd
      · split at hd
        · rw [List.mem_singleton.mp hd]
          exact small_lowerSigma b s
        · exact small_of_mem_lowerChar hd
      · exact ih hd

theorem small_of_mem_lower {s : List Char} {d : Char} (hd : d ∈ lower s) : Small d :=
  small_of_mem_lowerFrom hd

theorem lowerFrom_eq_flatMap {s : List Char} (h : 'Σ' ∉ s) (b : Bool) :
    lowerFrom b s = s.flatMap lowerChar := by
  induction s generalizing b with
  | nil => rfl
  | cons c s ih =>
      obtain ⟨hc, hs⟩ := not_or.mp (mt List.mem_cons.mpr h)
      rw [lowerFrom, if_neg (Ne.symm hc), ih hs, List.flatMap_cons]

/-- Only a capital sigma looks at its neighbours. -/
theorem lower_eq_flatMap {s : List Char} (h : 'Σ' ∉ s) : lower s = s.flatMap lowerChar :=
  lowerFrom_eq_flatMap h false

theorem lower_append {s t : List Char} (hs : 'Σ' ∉ s) (ht : 'Σ' ∉ t) : lower (s ++ t) = lower s ++ lower t := by
  have both : 'Σ' ∉ s ++ t := by
    rw [List.mem_append]
    exact not_or.mpr ⟨hs, ht⟩
  rw [lower_eq_flatMap both, lower_eq_flatMap hs, lower_eq_flatMap ht, List.flatMap_append]

theorem lower_eq_self {s : List Char} (h : ∀ c ∈ s, Small c) : lower s = s := by
  rw [lower_eq_flatMap fun hs => (h _ hs).1 rfl]
  induction s with
  | nil => rfl
  | cons c s ih =>
      obtain ⟨hc, hs⟩ := List.forall_mem_cons.mp h
      rw [List.flatMap_cons, hc.2, ih hs, List.singleton_append]

/-- Small characters at the end stay, whatever stands before them. -/
theorem suffix_lowerFrom {u : List Char} (h : ∀ c ∈ u, Small c) (b : Bool) (a : List Char) :
    u <:+ lowerFrom b (a ++ u) := by
  induction a generalizing b with
  | nil =>
      have noSigma : 'Σ' ∉ u := fun hu => (h _ hu).1 rfl
      have stays : lowerFrom b u = u := by
        rw [lowerFrom_eq_flatMap noSigma, ← lower_eq_flatMap noSigma, lower_eq_self h]
      exact ⟨[], stays.symm⟩
  | cons c a ih =>
      rw [List.cons_append, lowerFrom]
      exact (ih _).trans (List.suffix_append _ _)

end ExportDiff.Text
