/- The blanks between other characters: collapsing them, and patterns that do not tell one gap from
another. -/
import ExportDiff.Proofs.Text.Replace
import ExportDiff.Text.CharClass
import Mathlib.Data.List.Chain

namespace ExportDiff.Text

/-- Texts that differ only in which blanks stand in a gap, and how many. -/
inductive SameButGaps : List Char → List Char → Prop
  | nil : SameButGaps [] []
  | char {c s t} : SameButGaps s t → SameButGaps (c :: s) (c :: t)
  | gap {u v s t} : u ≠ [] → v ≠ [] → (∀ c ∈ u, isBlank c = true) → (∀ c ∈ v, isBlank c = true) →
      SameButGaps s t → SameButGaps (u ++ s) (v ++ t)

/-- The second text is the first with each gap made a single space. -/
structure SingleSpaced (s t : List Char) : Prop where
  gaps : SameButGaps s t
  spaces : ∀ c ∈ t, isBlank c = true → c = ' '
  single : t.IsChain fun c d => isBlank c = true → isBlank d = false

section
variable {c d : Char} {s t u : List Char}

theorem isBlank_space : isBlank ' ' = true := by decide

theorem collapse_char (hc : isBlank c = false) (s : List Char) :
    collapseBlanks (c :: s) = c :: collapseBlanks s := by
  rw [collapseBlanks, hc]
  rfl

/-- Of several blanks the first does not count. -/
theorem collapse_blank (hc : isBlank c = true) (hs : s.head?.any isBlank = true) :
    collapseBlanks (c :: s) = collapseBlanks s := by
  rw [collapseBlanks, if_pos hc, if_pos hs]

theorem collapse_lastBlank (hc : isBlank c = true) (hs : s.head?.any isBlank = false) :
    collapseBlanks (c :: s) = ' ' :: collapseBlanks s := by
  rw [collapseBlanks, if_pos hc, if_neg (Bool.eq_false_iff.mp hs)]

theorem head_collapse (s : List Char) : (collapseBlanks s).head?.any isBlank = s.head?.any isBlank := by
  induction s with
  | nil => rfl
  | cons c s ih =>
      cases hc : isBlank c with
      | false =>
          rw [collapse_char hc]
          rfl
      | true =>
          cases hs : s.head?.any isBlank with
          | true => rw [collapse_blank hc hs, ih, hs, List.head?_cons, Option.any_some, hc]
          | false =>
              rw [collapse_lastBlank hc hs, List.head?_cons, List.head?_cons, Option.any_some,
                Option.any_some, hc, isBlank_space]

/-- The same characters may be put before texts that collapse to the same. -/
theorem collapse_congr (a : List Char) (h : collapseBlanks s = collapseBlanks t) :
    collapseBlanks (a ++ s) = collapseBlanks (a ++ t) := by
  induction a with
  | nil => exact h
  | cons c a ih =>
      have heads : (a ++ s).head?.any isBlank = (a ++ t).head?.any isBlank := by
        rw [← head_collapse, ih, head_collapse]
      rw [List.cons_append, List.cons_append, collapseBlanks, collapseBlanks, heads, ih]

/-- It does not matter which blank it is. -/
theorem collapse_anyBlank (hc : isBlank c = true) (hd : isBlank d = true) (s : List Char) :
    collapseBlanks (c :: s) = collapseBlanks (d :: s) := by
  rw [collapseBlanks, collapseBlanks, if_pos hc, if_pos hd]

theorem collapse_gap (some : u ≠ []) (hu : ∀ c ∈ u, isBlank c = true) (s : List Char) :
    collapseBlanks (u ++ s) = collapseBlanks (' ' :: s) := by
  induction u with
  | nil => exact absurd rfl some
  | cons c u ih =>
      obtain ⟨hc, rest⟩ := List.forall_mem_cons.mp hu
      cases u with
      | nil => exact collapse_anyBlank hc isBlank_space s
      | cons d u =>
          have next : (d :: u ++ s).head?.any isBlank = true := rest d List.mem_cons_self
          exact (collapse_blank hc next).trans (ih (List.cons_ne_nil d u) rest)

/-- What stands before a character that is no blank collapses by itself. -/
theorem collapse_split (hc : isBlank c = false) (u s : List Char) :
    collapseBlanks (u ++ c :: s) = collapseBlanks u ++ c :: collapseBlanks s := by
  induction u with
  | nil => exact collapse_char hc s
  | cons d u ih =>
      have heads : (u ++ c :: s).head?.any isBlank = u.head?.any isBlank := by
        cases u with
        | nil => exact hc
        | cons e u => rfl
      rw [List.cons_append, collapseBlanks, collapseBlanks, heads, ih]
      split
      · split <;> rfl
      · rfl

theorem collapse_idem (s : List Char) : collapseBlanks (collapseBlanks s) = collapseBlanks s := by
  induction s with
  | nil => rfl
  | cons c s ih =>
      cases hc : isBlank c with
      | false => rw [collapse_char hc, collapse_char hc, ih]
      | true =>
          cases hs : s.head?.any isBlank with
          | true => rw [collapse_blank hc hs, ih]
          | false =>
              have alone := (head_collapse s).trans hs
              rw [collapse_lastBlank hc hs, collapse_lastBlank isBlank_space alone, ih]

theorem collapse_spaces (s : List Char) : ∀ c ∈ collapseBlanks s, isBlank c = true → c = ' ' := by
  induction s with
  | nil => exact fun c member => nomatch member
  | cons c s ih =>
      cases hc : isBlank c with
      | false =>
          rw [collapse_char hc, List.forall_mem_cons]
          exact ⟨fun blank => absurd (hc.symm.trans blank) Bool.false_ne_true, ih⟩
      | true =>
          cases hs : s.head?.any isBlank with
          | true => rwa [collapse_blank hc hs]
          | false =>
              rw [collapse_lastBlank hc hs, List.forall_mem_cons]
              exact ⟨fun _ => rfl, ih⟩

theorem collapse_single (s : List Char) :
    (collapseBlanks s).IsChain fun c d => isBlank c = true → isBlank d = false := by
  induction s with
  | nil => exact .nil
  | cons c s ih =>
      cases hc : isBlank c with
      | false =>
          rw [collapse_char hc, List.isChain_cons]
          exact ⟨fun _ _ blank => absurd (hc.symm.trans blank) Bool.false_ne_true, ih⟩
      | true =>
          cases hs : s.head?.any isBlank with
          | true => rwa [collapse_blank hc hs]
          | false =>
              rw [collapse_lastBlank hc hs, List.isChain_cons]
              refine ⟨fun d first _ => ?_, ih⟩
              have alone := (head_collapse s).trans hs
              rwa [Option.mem_def.mp first] at alone

theorem SameButGaps.collapse_eq (h : SameButGaps s t) : collapseBlanks s = collapseBlanks t := by
  induction h with
  | nil => rfl
  | @char c s t _ ih => exact collapse_congr [c] ih
  | gap hu hv blank blank' _ ih =>
      rw [collapse_gap hu blank, collapse_gap hv blank']
      exact collapse_congr [' '] ih

theorem collapse_dropBlanks (hs : s.head?.any isBlank = true) :
    collapseBlanks s = ' ' :: collapseBlanks (s.dropWhile isBlank) := by
  have stop : (s.dropWhile isBlank).head?.any isBlank = false := by
    have := List.head?_dropWhile_not isBlank s
    cases first : (s.dropWhile isBlank).head? with
    | none => rfl
    | some d => simpa [first] using this
  rw [← collapse_lastBlank isBlank_space stop,
    ← collapse_gap (takeWhile_ne_nil hs) (takeWhile_all isBlank s), List.takeWhile_append_dropWhile]

/-- Two texts collapse to the same just when they differ in their gaps only. -/
theorem sameButGaps_iff : SameButGaps s t ↔ collapseBlanks s = collapseBlanks t := by
  refine ⟨SameButGaps.collapse_eq, fun same => ?_⟩
  induction size : s.length using Nat.strong_induction_on generalizing s t with
  | _ n ih =>
      have heads : s.head?.any isBlank = t.head?.any isBlank := by
        rw [← head_collapse, same, head_collapse]
      cases hs : s.head?.any isBlank with
      | true =>
          have ht := heads.symm.trans hs
          rw [collapse_dropBlanks hs, collapse_dropBlanks ht] at same
          have shorter : (s.dropWhile isBlank).length < n := by
            have lengths := congrArg List.length (List.takeWhile_append_dropWhile (p := isBlank) (l := s))
            have taken := List.length_pos_iff.mpr (takeWhile_ne_nil hs)
            rw [List.length_append] at lengths
            omega
          have rest := ih _ shorter (List.cons.inj same).2 rfl
          have both := SameButGaps.gap (takeWhile_ne_nil hs) (takeWhile_ne_nil ht)
            (takeWhile_all isBlank s) (takeWhile_all isBlank t) rest
          rwa [List.takeWhile_append_dropWhile, List.takeWhile_append_dropWhile] at both
      | false =>
          have ht := heads.symm.trans hs
          cases s with
          | nil =>
              cases t with
              | nil => exact .nil
              | cons d t =>
                  rw [collapse_char ht] at same
                  cases same
          | cons c s =>
              cases t with
              | nil =>
                  rw [collapse_char hs] at same
                  cases same
              | cons d t =>
                  rw [collapse_char hs, collapse_char ht] at same
                  obtain ⟨rfl, rest⟩ := List.cons.inj same
                  have shorter : s.length < n := by
                    rw [← size, List.length_cons]
                    exact Nat.lt_succ_self _
                  exact .char (ih _ shorter rest rfl)

instance (s t : List Char) : Decidable (SameButGaps s t) := decidable_of_iff' _ sameButGaps_iff

theorem collapse_singleSpaced (s : List Char) : SingleSpaced s (collapseBlanks s) :=
  ⟨sameButGaps_iff.mpr (collapse_idem s).symm, collapse_spaces s, collapse_single s⟩

end

/-! Patterns. -/

def blanks : List Char :=
  blankRanges.flatMap fun r => (List.range' r.1 (r.2 + 1 - r.1)).map Char.ofNat

theorem mem_blanks {c : Char} (h : isBlank c = true) : c ∈ blanks := by
  obtain ⟨r, member, bounds⟩ := List.any_eq_true.mp h
  rw [Bool.and_eq_true, decide_eq_true_iff, decide_eq_true_iff] at bounds
  refine List.mem_flatMap.mpr ⟨r, member, List.mem_map.mpr ⟨c.toNat, ?_, Char.ofNat_toNat c⟩⟩
  rw [List.mem_range'_1]
  omega

/-- A piece that takes something, but no blank. -/
def Piece.isSolid : Piece → Bool
  | .chars w => !w.isEmpty && w.all (!isBlank ·)
  | .run p => blanks.all (!p ·)
  | _ => false

/-- A piece that takes no blank, or takes any blanks. -/
def Piece.isEven : Piece → Bool
  | .gap p => blanks.all p
  | p => p.isSolid

/-- Where the pattern matches does not depend on which blanks stand in a gap, and how many. -/
def Pattern.isEven (p : Pattern) : Bool :=
  blanks.all (!p.notAfter ·) && p.alternatives.all fun ps =>
    ps.all Piece.isEven && ps.head?.any Piece.isSolid && ps.getLast?.any Piece.isSolid

section
variable {p : Char → Bool} {piece : Piece} {ps : List Piece} {s t : List Char}

theorem Piece.Takes.solid (solid : piece.isSolid = true) (h : piece.Takes t) :
    t ≠ [] ∧ ∀ c ∈ t, isBlank c = false := by
  cases h with
  | chars w =>
      rw [isSolid, Bool.and_eq_true, Bool.not_eq_true', List.isEmpty_eq_false_iff, List.all_eq_true] at solid
      exact ⟨solid.1, fun c hc => by simpa using solid.2 c hc⟩
  | run some all =>
      refine ⟨some, fun c hc => Bool.eq_false_iff.mpr fun blank => ?_⟩
      have not := List.all_eq_true.mp solid c (mem_blanks blank)
      rw [all c hc] at not
      cases not
  | _ => cases solid

theorem Spells.begins (h : Spells ps t) (solid : ps.head?.any Piece.isSolid = true) :
    ∃ c u, t = c :: u ∧ isBlank c = false := by
  cases h with
  | nil => cases solid
  | cons takes _ =>
      obtain ⟨some, all⟩ := takes.solid solid
      obtain ⟨c, u, rfl⟩ := List.exists_cons_of_ne_nil some
      exact ⟨c, _, rfl, all c List.mem_cons_self⟩

theorem Spells.ends (h : Spells ps t) (solid : ps.getLast?.any Piece.isSolid = true) :
    ∃ u c, t = u ++ [c] ∧ isBlank c = false := by
  induction h with
  | nil => cases solid
  | @cons q ps t u takes rest ih =>
      cases ps with
      | nil =>
          cases rest
          obtain ⟨some, all⟩ := takes.solid solid
          rw [List.append_nil]
          exact ⟨_, _, (List.dropLast_append_getLast some).symm, all _ (List.getLast_mem some)⟩
      | cons q' ps =>
          rw [List.getLast?_cons_cons] at solid
          obtain ⟨v, c, rfl, hc⟩ := ih solid
          exact ⟨t ++ v, c, (List.append_assoc t v [c]).symm, hc⟩

/-- A class that holds all blanks or none. -/
def Uniform (p : Char → Bool) : Prop := ∀ c, isBlank c = true → p c = p ' '

theorem Uniform.head (hp : Uniform p) (s : List Char) : (collapseBlanks s).head?.any p = s.head?.any p := by
  cases s with
  | nil => rfl
  | cons c s =>
      cases hc : isBlank c with
      | false =>
          rw [collapse_char hc]
          rfl
      | true =>
          have first : (c :: s).head?.any isBlank = true := hc
          rw [collapse_dropBlanks first]
          exact (hp c hc).symm

theorem Uniform.dropWhile (hp : Uniform p) (s : List Char) :
    (collapseBlanks s).dropWhile p = collapseBlanks (s.dropWhile p) := by
  induction s with
  | nil => rfl
  | cons c s ih =>
      by_cases taken : p c = true
      · rw [List.dropWhile_cons_of_pos taken, ← ih]
        cases hc : isBlank c with
        | false => rw [collapse_char hc, List.dropWhile_cons_of_pos taken]
        | true =>
            cases hs : s.head?.any isBlank with
            | true => rw [collapse_blank hc hs]
            | false => rw [collapse_lastBlank hc hs, List.dropWhile_cons_of_pos ((hp c hc).symm.trans taken)]
      · rw [List.dropWhile_cons_of_neg taken]
        have stop : (collapseBlanks (c :: s)).head?.any p = false := (hp.head (c :: s)).trans (Bool.eq_false_iff.mpr taken)
        cases whole : collapseBlanks (c :: s) with
        | nil => rfl
        | cons d t =>
            rw [whole] at stop
            exact List.dropWhile_cons_of_neg (Bool.eq_false_iff.mp stop)

theorem stripBy_collapse {w : List Char} (hw : ∀ c ∈ w, isBlank c = false) (s : List Char) :
    stripBy (· == ·) w (collapseBlanks s) = (stripBy (· == ·) w s).map collapseBlanks := by
  induction w generalizing s with
  | nil => rfl
  | cons c w ih =>
      obtain ⟨hc, rest⟩ := List.forall_mem_cons.mp hw
      cases s with
      | nil => rfl
      | cons d s =>
          cases hd : isBlank d with
          | false =>
              rw [collapse_char hd, stripBy, stripBy, ih rest]
              split <;> rfl
          | true =>
              -- The text goes on with a blank before and after it is collapsed.
              have other : ∀ e, isBlank e = true → (c == e) = false := by
                intro e he
                rw [beq_eq_false_iff_ne]
                rintro rfl
                exact absurd (hc.symm.trans he) Bool.false_ne_true
              have first : (d :: s).head?.any isBlank = true := hd
              rw [collapse_dropBlanks first, stripBy, stripBy, other d hd, other ' ' isBlank_space]
              rfl

/-- A piece that takes no blank tells none from another. -/
theorem uniform_of_solid (solid : (Piece.run p).isSolid = true) : Uniform p := by
  have none : ∀ c, isBlank c = true → p c = false := fun c hc => by
    simpa using List.all_eq_true.mp solid c (mem_blanks hc)
  intro c hc
  rw [none c hc, none ' ' isBlank_space]

theorem uniform_of_even (even : (Piece.gap p).isEven = true) : Uniform p := by
  have all : ∀ c, isBlank c = true → p c = true := fun c hc => List.all_eq_true.mp even c (mem_blanks hc)
  intro c hc
  rw [all c hc, all ' ' isBlank_space]

theorem matchPieces_collapse (even : ps.all Piece.isEven = true) (s : List Char) :
    (matchPieces ps (collapseBlanks s)).map (·.rest) =
      (matchPieces ps s).map fun m => collapseBlanks m.rest := by
  induction ps generalizing s with
  | nil => rfl
  | cons piece ps ih =>
      rw [List.all_cons, Bool.and_eq_true] at even
      obtain ⟨first, others⟩ := even
      have later (m n : Nat) (s : List Char) :
          ((matchPieces ps (collapseBlanks s)).map (Match.after m)).map (·.rest) =
            ((matchPieces ps s).map (Match.after n)).map fun m => collapseBlanks m.rest := by
        rw [Option.map_map, Option.map_map]
        exact ih others s
      cases piece with
      | chars w =>
          have solid : (Piece.chars w).isSolid = true := first
          rw [matchPieces, matchPieces, stripBy_collapse ((Piece.Takes.chars w).solid solid).2]
          cases stripBy (· == ·) w s with
          | none => rfl
          | some r => exact later w.length w.length r
      | run p =>
          have uniform := uniform_of_solid first
          rw [matchPieces, matchPieces, uniform.head, uniform.dropWhile]
          split
          · exact later _ _ (s.dropWhile p)
          · rfl
      | gap p =>
          have uniform := uniform_of_even first
          rw [matchPieces, matchPieces, uniform.dropWhile]
          exact later _ _ (s.dropWhile p)
      | _ => cases first

end

namespace Pattern

section
variable {p : Pattern} {before before' : Option Char} {s t : List Char}

theorem matchAt_collapse (even : p.isEven = true) (same : before.any p.notAfter = before'.any p.notAfter)
    (s : List Char) : (p.matchAt before' (collapseBlanks s)).map (·.rest) =
      (p.matchAt before s).map fun m => collapseBlanks m.rest := by
  have pieces : ∀ ps ∈ p.alternatives, ps.all Piece.isEven = true := by
    intro ps member
    have := List.all_eq_true.mp (Bool.and_eq_true_iff.mp even).2 ps member
    simp only [Bool.and_eq_true] at this
    exact this.1.1
  rw [matchAt, matchAt, same]
  split
  · rfl
  · generalize p.alternatives = alternatives at pieces
    induction alternatives with
    | nil => rfl
    | cons ps alternatives ih =>
        obtain ⟨first, others⟩ := List.forall_mem_cons.mp pieces
        have here := matchPieces_collapse first s
        rw [List.findSome?_cons, List.findSome?_cons]
        cases found : matchPieces ps s with
        | none =>
            rw [found, Option.map_none, Option.map_eq_none_iff] at here
            rw [here]
            exact ih others
        | some m =>
            rw [found, Option.map_some, Option.map_eq_some_iff] at here
            obtain ⟨m', there, rest⟩ := here
            rw [there]
            exact congrArg some rest

/-- What an even pattern takes begins and ends with no blank. -/
theorem taken_of_even (even : p.isEven = true) {m : Match} (h : p.matchAt before s = some m) :
    s.head?.any isBlank = false ∧
      ∃ u c, s = u ++ [c] ++ m.rest ∧ m.length = (u ++ [c]).length ∧ isBlank c = false := by
  obtain ⟨ps, member, t, rfl, size, spelled⟩ := matchAt_of h
  have solid := List.all_eq_true.mp (Bool.and_eq_true_iff.mp even).2 ps member
  simp only [Bool.and_eq_true] at solid
  obtain ⟨b, v, same, first⟩ := spelled.begins solid.1.2
  obtain ⟨u, c, rfl, last⟩ := spelled.ends solid.2
  refine ⟨?_, u, c, rfl, size.symm, last⟩
  rw [same]
  exact first

theorem replaceFrom_blank (even : p.isEven = true) {c : Char} (hc : isBlank c = true) (fresh : List Char)
    (before : Option Char) (s : List Char) :
    p.replaceFrom fresh 0 before (c :: s) = c :: p.replaceFrom fresh 0 (some c) s := by
  cases found : p.matchAt before (c :: s) with
  | none => rw [replaceFrom, found]
  | some m =>
      have first : isBlank c = false := (taken_of_even even found).1
      exact absurd (first.symm.trans hc) Bool.false_ne_true

theorem notAfter_blank (even : p.isEven = true) {c : Char} (hc : isBlank c = true) : p.notAfter c = false := by
  simpa using List.all_eq_true.mp (Bool.and_eq_true_iff.mp even).1 c (mem_blanks hc)

/-- Where a match ends, what is left collapses to what is left of the collapsed text, behind the same
character. -/
theorem replaceFrom_even (even : p.isEven = true) (fresh : List Char) {m m' : Match}
    (found : p.matchAt before s = some m) (found' : p.matchAt before' (collapseBlanks s) = some m')
    (rest : m'.rest = collapseBlanks m.rest) :
    ∃ c, p.replaceFrom fresh 0 before s = fresh ++ p.replaceFrom fresh 0 (some c) m.rest ∧
      p.replaceFrom fresh 0 before' (collapseBlanks s) =
        fresh ++ p.replaceFrom fresh 0 (some c) (collapseBlanks m.rest) := by
  obtain ⟨_, u, c, split, size, last⟩ := taken_of_even even found
  obtain ⟨_, u', c', split', size', _⟩ := taken_of_even even found'
  have same : c' = c := by
    have whole := split'
    rw [split, List.append_assoc, List.singleton_append, collapse_split last, rest, List.append_cons,
      List.append_left_inj] at whole
    exact ((List.append_inj' whole rfl).2 |> List.cons.inj).1.symm
  have one (w : List Char) (d : Char) : (w ++ [d]).getLast? = some d := List.getLast?_concat
  have some_taken (w : List Char) (d : Char) : w ++ [d] ≠ [] := List.append_ne_nil_of_right_ne_nil w (List.cons_ne_nil d [])
  rw [split] at found
  rw [split'] at found'
  have replaced := replaceFrom_matched fresh found size (some_taken u c)
  have replaced' := replaceFrom_matched fresh found' size' (some_taken u' c')
  rw [← split, one] at replaced
  rw [← split', one, same, rest] at replaced'
  exact ⟨c, replaced, replaced'⟩

/-- Replacing and collapsing gives what collapsing first would have given. What stands before counts only
where the text does not begin with a blank. -/
theorem collapse_replaceFrom (even : p.isEven = true) (fresh : List Char)
    (same : s.head?.any isBlank = false → before.any p.notAfter = before'.any p.notAfter) :
    collapseBlanks (p.replaceFrom fresh 0 before s) =
      collapseBlanks (p.replaceFrom fresh 0 before' (collapseBlanks s)) := by
  induction size : s.length using Nat.strong_induction_on generalizing s before before' with
  | _ n ih =>
      cases s with
      | nil => rfl
      | cons c s =>
          have shorter : s.length < n := by
            rw [← size, List.length_cons]
            exact Nat.lt_succ_self _
          cases hc : isBlank c with
          | true =>
              rw [replaceFrom_blank even hc]
              cases hs : s.head?.any isBlank with
              | true =>
                  -- The next blank stays too, so this one does not count on either side.
                  have blank : (p.replaceFrom fresh 0 (some c) s).head?.any isBlank = true := by
                    cases s with
                    | nil => cases hs
                    | cons d s =>
                        rw [replaceFrom_blank even hs]
                        exact hs
                  rw [collapse_blank hc blank, collapse_blank hc hs]
                  exact ih _ shorter (fun clear => absurd (clear.symm.trans hs) Bool.false_ne_true) rfl
              | false =>
                  have after : (some c).any p.notAfter = (some ' ').any p.notAfter := by
                    rw [Option.any_some, Option.any_some, notAfter_blank even hc, notAfter_blank even isBlank_space]
                  rw [collapse_lastBlank hc hs, replaceFrom_blank even isBlank_space,
                    collapse_anyBlank hc isBlank_space]
                  exact collapse_congr [' '] (ih _ shorter (fun _ => after) rfl)
          | false =>
              have here := matchAt_collapse even (same hc) (c :: s)
              cases found : p.matchAt before (c :: s) with
              | none =>
                  rw [found, Option.map_none, Option.map_eq_none_iff, collapse_char hc] at here
                  rw [collapse_char hc, replaceFrom, replaceFrom, found, here]
                  exact collapse_congr [c] (ih _ shorter (fun _ => rfl) rfl)
              | some m =>
                  rw [found, Option.map_some, Option.map_eq_some_iff] at here
                  obtain ⟨m', found', rest⟩ := here
                  obtain ⟨d, replaced, replaced'⟩ := replaceFrom_even even fresh found found' rest
                  have fewer : m.rest.length < n := by
                    obtain ⟨_, u, _, split, _⟩ := taken_of_even even found
                    have lengths := congrArg List.length split
                    simp only [List.length_append, List.length_singleton] at lengths
                    omega
                  rw [replaced, replaced']
                  exact collapse_congr fresh (ih _ fewer (fun _ => rfl) rfl)

theorem collapse_replaceAll (even : p.isEven = true) (fresh s : List Char) :
    collapseBlanks (p.replaceAll fresh s) = collapseBlanks (p.replaceAll fresh (collapseBlanks s)) :=
  collapse_replaceFrom even fresh fun _ => rfl

end

end Pattern

end ExportDiff.Text
