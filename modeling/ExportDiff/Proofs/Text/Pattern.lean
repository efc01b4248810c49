/- What a match takes is spelled by the pieces of its pattern, and replacing by lighter texts makes
a text lighter. -/
import ExportDiff.Text.Pattern
import Mathlib.Algebra.BigOperators.Group.List.Basic
import Mathlib.Algebra.GroupWithZero.Nat
import Mathlib.Data.List.Forall2
import Mathlib.Data.Nat.Init

namespace ExportDiff.Text

/-- The texts that a piece may take. -/
inductive Piece.Takes : Piece → List Char → Prop
  | chars (w) : Takes (.chars w) w
  | letters {w t} : List.Forall₂ (fun c d => sameLetter c d = true) w t → Takes (.letters w) t
  | exactly {n p t} : t.length = n → (∀ c ∈ t, p c = true) → Takes (.exactly n p) t
  | run {p t} : t ≠ [] → (∀ c ∈ t, p c = true) → Takes (.run p) t
  | gap {p t} : (∀ c ∈ t, p c = true) → Takes (.gap p) t
  | stretch {p t} : (∀ c ∈ t, p c = true) → Takes (.stretch p) t
  | capture {p t} : t ≠ [] → (∀ c ∈ t, p c = true) → Takes (.capture p) t
  | captureExactly {n p t} : t.length = n → (∀ c ∈ t, p c = true) → Takes (.captureExactly n p) t
  | atEnd : Takes .atEnd []

/-- A text is a sequence of parts that the pieces take one after another. -/
inductive Spells : List Piece → List Char → Prop
  | nil : Spells [] []
  | cons {p ps t u} : p.Takes t → Spells ps u → Spells (p :: ps) (t ++ u)

/-- A match takes a part of the head of a text that its pieces spell, and leaves the rest. -/
def Match.Of (ps : List Piece) (s : List Char) (m : Match) : Prop :=
  ∃ t, s = t ++ m.rest ∧ t.length = m.length ∧ Spells ps t

theorem Match.Of.cons {p : Piece} {ps : List Piece} {t s : List Char} {m : Match} (hp : p.Takes t)
    (h : m.Of ps s) {n : Match} (rest : n.rest = m.rest) (length : n.length = t.length + m.length) :
    n.Of (p :: ps) (t ++ s) := by
  obtain ⟨u, rfl, size, spelled⟩ := h
  refine ⟨t ++ u, ?_, ?_, .cons hp spelled⟩
  · rw [rest, List.append_assoc]
  · rw [List.length_append, size, length]

theorem stripBy_eq_some {same : Char → Char → Bool} {w s r : List Char} (h : stripBy same w s = some r) :
    ∃ t, s = t ++ r ∧ List.Forall₂ (fun c d => same c d = true) w t := by
  induction w generalizing s with
  | nil =>
      cases h
      exact ⟨[], rfl, .nil⟩
  | cons c w ih =>
      cases s with
      | nil => exact nomatch h
      | cons d s =>
          by_cases hc : same c d = true
          · rw [stripBy, if_pos hc] at h
            obtain ⟨t, rfl, spelled⟩ := ih h
            exact ⟨d :: t, rfl, .cons hc spelled⟩
          · rw [stripBy, if_neg hc] at h
            exact nomatch h

theorem stripBy_eq_iff {w s r : List Char} : stripBy (· == ·) w s = some r ↔ s = w ++ r := by
  constructor
  · intro h
    obtain ⟨t, rfl, spelled⟩ := stripBy_eq_some h
    have same : w = t := by
      rw [← List.forall₂_eq_eq_eq]
      exact spelled.imp fun c d h => beq_iff_eq.mp h
    rw [same]
  · rintro rfl
    induction w with
    | nil => rfl
    | cons c w ih => rw [List.cons_append, stripBy, if_pos (beq_self_eq_true c), ih]

theorem takeExactly_eq_some {p : Char → Bool} {n : Nat} {s t r : List Char}
    (h : takeExactly p n s = some (t, r)) : s = t ++ r ∧ t.length = n ∧ ∀ c ∈ t, p c = true := by
  induction n generalizing s t with
  | zero =>
      cases h
      exact ⟨rfl, rfl, fun c hc => nomatch hc⟩
  | succ n ih =>
      cases s with
      | nil => exact nomatch h
      | cons d s =>
          by_cases hd : p d = true
          · rw [takeExactly, if_pos hd] at h
            obtain ⟨⟨u, v⟩, here, same⟩ := Option.map_eq_some_iff.mp h
            cases same
            obtain ⟨rfl, size, all⟩ := ih here
            exact ⟨rfl, congrArg Nat.succ size, List.forall_mem_cons.mpr ⟨hd, all⟩⟩
          · rw [takeExactly, if_neg hd] at h
            exact nomatch h

theorem takeWhile_ne_nil {p : Char → Bool} {s : List Char} (h : s.head?.any p = true) :
    s.takeWhile p ≠ [] := by
  cases s with
  | nil => exact nomatch h
  | cons c s =>
      have hc : p c = true := h
      rw [List.takeWhile_cons, if_pos hc]
      exact List.cons_ne_nil _ _

theorem takeWhile_all (p : Char → Bool) (s : List Char) : ∀ c ∈ s.takeWhile p, p c = true :=
  List.all_eq_true.mp List.all_takeWhile

theorem Match.Of.span {p : Piece} {q : Char → Bool} {ps : List Piece} {s : List Char} {m : Match}
    (hp : p.Takes (s.takeWhile q)) (h : m.Of ps (s.dropWhile q)) {n : Match} (rest : n.rest = m.rest)
    (length : n.length = (s.takeWhile q).length + m.length) : n.Of (p :: ps) s := by
  have taken := h.cons hp rest length
  rwa [List.takeWhile_append_dropWhile] at taken

theorem Match.Of.stretch_cons {p : Char → Bool} {ps : List Piece} {c : Char} {s : List Char} {m : Match}
    (hc : p c = true) (h : m.Of (.stretch p :: ps) s) : (m.after 1).Of (.stretch p :: ps) (c :: s) := by
  obtain ⟨_, rfl, size, spelled⟩ := h
  cases spelled with
  | @cons _ _ t u ht hu =>
      cases ht with
      | stretch all =>
          refine ⟨c :: t ++ u, rfl, ?_, .cons (.stretch (List.forall_mem_cons.mpr ⟨hc, all⟩)) hu⟩
          change (t ++ u).length + 1 = 1 + m.length
          rw [size, Nat.add_comm]

theorem longest_of {p : Char → Bool} {ps : List Piece} {next : List Char → Option Match}
    (hnext : ∀ s m, next s = some m → m.Of ps s) {s : List Char} {m : Match}
    (h : longest p next s = some m) : m.Of (.stretch p :: ps) s := by
  have atOnce (s : List Char) (m : Match) (here : next s = some m) : m.Of (.stretch p :: ps) s :=
    (hnext s m here).cons (.stretch (List.forall_mem_nil _)) rfl (Nat.zero_add _).symm
  induction s generalizing m with
  | nil => exact atOnce [] m h
  | cons c s ih =>
      by_cases hc : p c = true
      · rw [longest, if_pos hc] at h
        rcases Option.or_eq_some_iff.mp h with longer | ⟨_, shorter⟩
        · obtain ⟨k, here, rfl⟩ := Option.map_eq_some_iff.mp longer
          exact (ih here).stretch_cons hc
        · exact atOnce _ m shorter
      · rw [longest, if_neg hc] at h
        exact atOnce _ m h

/-- Every match takes what its pieces spell. -/
theorem matchPieces_of {ps : List Piece} {s : List Char} {m : Match} (h : matchPieces ps s = some m) :
    m.Of ps s := by
  induction ps generalizing s m with
  | nil =>
      cases h
      exact ⟨[], rfl, rfl, .nil⟩
  | cons p ps ih =>
      cases p with
      | chars w =>
          obtain ⟨r, strip, rest⟩ := Option.bind_eq_some_iff.mp h
          obtain ⟨k, here, rfl⟩ := Option.map_eq_some_iff.mp rest
          rw [stripBy_eq_iff.mp strip]
          exact (ih here).cons (.chars w) rfl rfl
      | letters w =>
          obtain ⟨r, strip, rest⟩ := Option.bind_eq_some_iff.mp h
          obtain ⟨k, here, rfl⟩ := Option.map_eq_some_iff.mp rest
          obtain ⟨t, rfl, spelled⟩ := stripBy_eq_some strip
          exact (ih here).cons (.letters spelled) rfl (by rw [← spelled.length_eq]; rfl)
      | exactly n q =>
          obtain ⟨⟨t, r⟩, take, rest⟩ := Option.bind_eq_some_iff.mp h
          obtain ⟨k, here, rfl⟩ := Option.map_eq_some_iff.mp rest
          obtain ⟨rfl, size, all⟩ := takeExactly_eq_some take
          exact (ih here).cons (.exactly size all) rfl (by rw [size]; rfl)
      | run q =>
          by_cases hs : s.head?.any q = true
          · rw [matchPieces, if_pos hs] at h
            obtain ⟨k, here, rfl⟩ := Option.map_eq_some_iff.mp h
            exact (ih here).span (.run (takeWhile_ne_nil hs) (takeWhile_all q s)) rfl rfl
          · rw [matchPieces, if_neg hs] at h
            exact nomatch h
      | gap q =>
          obtain ⟨k, here, rfl⟩ := Option.map_eq_some_iff.mp h
          exact (ih here).span (.gap (takeWhile_all q s)) rfl rfl
      | stretch q => exact longest_of (fun _ _ => ih) h
      | capture q =>
          by_cases hs : s.head?.any q = true
          · rw [matchPieces, if_pos hs] at h
            obtain ⟨k, here, rfl⟩ := Option.map_eq_some_iff.mp h
            exact (ih here).span (.capture (takeWhile_ne_nil hs) (takeWhile_all q s)) rfl rfl
          · rw [matchPieces, if_neg hs] at h
            exact nomatch h
      | captureExactly n q =>
          obtain ⟨⟨t, r⟩, take, rest⟩ := Option.bind_eq_some_iff.mp h
          obtain ⟨k, here, rfl⟩ := Option.map_eq_some_iff.mp rest
          obtain ⟨rfl, size, all⟩ := takeExactly_eq_some take
          exact (ih here).cons (.captureExactly size all) rfl rfl
      | atEnd =>
          by_cases hs : (s = [] || s = ['\n']) = true
          · rw [matchPieces, if_pos hs] at h
            exact (ih h).cons .atEnd rfl (Nat.zero_add _).symm
          · rw [matchPieces, if_neg hs] at h
            exact nomatch h

namespace Pattern

theorem matchAt_of {p : Pattern} {before : Option Char} {s : List Char} {m : Match}
    (h : p.matchAt before s = some m) : ∃ ps ∈ p.alternatives, m.Of ps s := by
  unfold matchAt at h
  split at h
  · exact nomatch h
  · obtain ⟨ps, member, here⟩ := List.exists_of_findSome?_eq_some h
    exact ⟨ps, member, matchPieces_of here⟩

theorem getLast?_cons_or (c : Char) (a : List Char) (before : Option Char) :
    (c :: a).getLast?.or before = a.getLast?.or (some c) := by
  rw [List.getLast?_cons]
  cases a.getLast? <;> rfl

theorem replaceFrom_drop (p : Pattern) (fresh : List Char) (n : Nat) (before : Option Char) (s : List Char) :
    p.replaceFrom fresh n before s = p.replaceFrom fresh 0 ((s.take n).getLast?.or before) (s.drop n) := by
  induction n generalizing before s with
  | zero => rfl
  | succ n ih =>
      cases s with
      | nil => rfl
      | cons c s =>
          rw [replaceFrom, ih, List.take_succ_cons, List.drop_succ_cons, getLast?_cons_or]

theorem replaceFrom_cons (p : Pattern) (fresh : List Char) (before : Option Char) (c : Char) (s : List Char) :
    (∃ m b, p.matchAt before (c :: s) = some m ∧
      p.replaceFrom fresh 0 before (c :: s) = fresh ++ p.replaceFrom fresh 0 b (s.drop (m.length - 1))) ∨
    (p.matchAt before (c :: s) = none ∧
      p.replaceFrom fresh 0 before (c :: s) = c :: p.replaceFrom fresh 0 (some c) s) := by
  cases h : p.matchAt before (c :: s) with
  | some m =>
      have skip := p.replaceFrom_drop fresh (m.length - 1) (some c) s
      exact .inl ⟨m, _, rfl, by rw [replaceFrom, h, ← skip]⟩
  | none => exact .inr ⟨rfl, by rw [replaceFrom, h]⟩

def Lightens (p : Pattern) (fresh : List Char) (f : Char → Nat) : Prop :=
  ∀ ps ∈ p.alternatives, ∀ t, Spells ps t → (fresh.map f).sum < (t.map f).sum

section
variable {p : Pattern} {fresh : List Char} {f : Char → Nat}

theorem Lightens.taken (hp : p.Lightens fresh f) {before : Option Char} {s : List Char} {m : Match}
    (h : p.matchAt before s = some m) :
    ∃ c t, s = c :: t ++ s.drop m.length ∧ m.length = t.length + 1 ∧
      (fresh.map f).sum < ((c :: t).map f).sum := by
  obtain ⟨ps, member, t, same, size, spelled⟩ := matchAt_of h
  have lighter := hp ps member t spelled
  cases t with
  | nil => exact absurd lighter (Nat.not_lt_zero _)
  | cons c t =>
      refine ⟨c, t, ?_, size.symm, lighter⟩
      rw [same, ← size, List.drop_left]

/-- A replacement by lighter texts leaves a text alone when nothing in it matches, and else makes it
lighter. -/
theorem replaceFrom_lightens (hp : p.Lightens fresh f) (before : Option Char) (s : List Char) :
    (p.searchFrom before s = none ∧ p.replaceFrom fresh 0 before s = s) ∨
      ((p.replaceFrom fresh 0 before s).map f).sum < (s.map f).sum := by
  induction hn : s.length using Nat.strong_induction_on generalizing before s with
  | _ n ih =>
      cases s with
      | nil =>
          refine .inl ⟨?_, rfl⟩
          cases h : p.matchAt before [] with
          | none => exact h
          | some m =>
              obtain ⟨c, t, same, _⟩ := hp.taken h
              exact nomatch same
      | cons c s =>
          rcases p.replaceFrom_cons fresh before c s with ⟨m, b, here, same⟩ | ⟨here, same⟩
          · right
            obtain ⟨d, t, split, size, lighter⟩ := hp.taken here
            rw [size, List.drop_succ_cons, List.cons_append, List.cons.injEq] at split
            rw [size, Nat.add_sub_cancel] at same
            have rest : ((p.replaceFrom fresh 0 b (s.drop t.length)).map f).sum ≤
                ((s.drop t.length).map f).sum := by
              have shorter : (s.drop t.length).length < n := by
                rw [← hn, List.length_drop, List.length_cons]
                omega
              rcases ih _ shorter b _ rfl with ⟨_, alone⟩ | less
              · exact Nat.le_of_eq (by rw [alone])
              · exact Nat.le_of_lt less
            calc ((p.replaceFrom fresh 0 before (c :: s)).map f).sum
                = (fresh.map f).sum + ((p.replaceFrom fresh 0 b (s.drop t.length)).map f).sum := by
                  rw [same, List.map_append, List.sum_append]
              _ < ((d :: t).map f).sum + ((s.drop t.length).map f).sum :=
                  Nat.add_lt_add_of_lt_of_le lighter rest
              _ = ((c :: s).map f).sum := by
                  rw [← List.sum_append, ← List.map_append, List.cons_append, ← split.2, split.1]
          · have shorter : s.length < n := by rw [← hn, List.length_cons]; exact Nat.lt_succ_self _
            rcases ih _ shorter (some c) s rfl with ⟨rest, alone⟩ | less
            · left
              rw [same, alone, searchFrom, here]
              exact ⟨rest, rfl⟩
            · right
              rw [same, List.map_cons, List.sum_cons, List.map_cons, List.sum_cons]
              exact Nat.add_lt_add_left less _

theorem mem_replaceFrom {allowed : Char → Prop}
    (hp : ∀ ps ∈ p.alternatives, ∀ t, Spells ps t → ∀ c ∈ fresh, c ∈ t ∨ allowed c)
    {n : Nat} {before : Option Char} {s : List Char} {c : Char} (hc : c ∈ p.replaceFrom fresh n before s) :
    c ∈ s ∨ allowed c := by
  induction s generalizing n before with
  | nil => cases n <;> exact nomatch hc
  | cons d s ih =>
      have later {n : Nat} {b : Option Char} (h : c ∈ p.replaceFrom fresh n b s) : c ∈ d :: s ∨ allowed c :=
        (ih h).imp_left (List.mem_cons_of_mem d)
      cases n with
      | succ n => exact later hc
      | zero =>
          cases here : p.matchAt before (d :: s) with
          | none =>
              rw [replaceFrom, here] at hc
              rcases List.mem_cons.mp hc with rfl | hc
              · exact .inl List.mem_cons_self
              · exact later hc
          | some m =>
              rw [replaceFrom, here] at hc
              rcases List.mem_append.mp hc with hc | hc
              · obtain ⟨ps, member, t, same, _, spelled⟩ := matchAt_of here
                rw [same]
                exact (hp ps member t spelled c hc).imp_left (List.mem_append_left _)
              · exact later hc

end

end Pattern

end ExportDiff.Text
