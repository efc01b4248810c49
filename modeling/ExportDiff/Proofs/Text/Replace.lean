/- Replacing in a text that comes in two parts: where no match crosses from one part to the other, each
of them is replaced by itself. -/
import ExportDiff.Proofs.Text.Pattern

namespace ExportDiff.Text

theorem stripBy_eq_none_iff {w s : List Char} : stripBy (· == ·) w s = none ↔ ¬ w <+: s := by
  rw [Option.eq_none_iff_forall_ne_some]
  constructor
  · rintro h ⟨r, rfl⟩
    exact h r (stripBy_eq_iff.mpr rfl)
  · intro h r strip
    exact h ⟨r, (stripBy_eq_iff.mp strip).symm⟩

/-- The first place of a character determines what stands before it. -/
theorem before_first {c : Char} {x y s t : List Char} (hx : c ∉ x) (hy : c ∉ y)
    (h : x ++ c :: s = y ++ c :: t) : x = y := by
  have first : ∀ {z u : List Char}, c ∉ z → (z ++ c :: u).takeWhile (· ≠ c) = z := by
    intro z u hz
    rw [List.takeWhile_append_of_pos, List.takeWhile_cons_of_neg, List.append_nil]
    · simp
    · intro d hd
      simpa using fun same : d = c => hz (same ▸ hd)
  rw [← first hx, h, first hy]

section
variable {w : String} {ps : List Piece} {s : List Char}

theorem matchPieces_text_append :
    matchPieces (.text w :: ps) (w.toList ++ s) = (matchPieces ps s).map (Match.after w.toList.length) := by
  rw [Piece.text, matchPieces, stripBy_eq_iff.mpr rfl, Option.bind_some]

theorem matchPieces_text_eq_none (h : ¬ w.toList <+: s) : matchPieces (.text w :: ps) s = none := by
  rw [Piece.text, matchPieces, stripBy_eq_none_iff.mpr h, Option.bind_none]

theorem takeExactly_append {p : Char → Bool} {n : Nat} {t : List Char} (size : t.length = n)
    (all : ∀ c ∈ t, p c = true) (s : List Char) : takeExactly p n (t ++ s) = some (t, s) := by
  induction t generalizing n with
  | nil => rw [← size, List.length_nil, takeExactly, List.nil_append]
  | cons c t ih =>
      obtain ⟨first, others⟩ := List.forall_mem_cons.mp all
      rw [← size, List.length_cons, List.cons_append, takeExactly, if_pos first, ih rfl others]
      rfl

theorem matchPieces_exactly_append {p : Char → Bool} {n : Nat} {t : List Char} (size : t.length = n)
    (all : ∀ c ∈ t, p c = true) :
    matchPieces (.exactly n p :: ps) (t ++ s) = (matchPieces ps s).map (Match.after n) := by
  rw [matchPieces, takeExactly_append size all, Option.bind_some]

end

theorem matchPieces_run (p : Char → Bool) (s : List Char) :
    matchPieces [.run p] s =
      if s.head?.any p then some ⟨(s.takeWhile p).length, [], s.dropWhile p⟩ else none := rfl

/-- A run ends where a character of another class follows. -/
theorem takeWhile_append_of_stop {p : Char → Bool} {s : List Char} (stop : s.head?.any p = false)
    (r : List Char) : (r ++ s).takeWhile p = r.takeWhile p := by
  have none_taken : s.takeWhile p = [] := by
    cases s with
    | nil => rfl
    | cons c s => exact List.takeWhile_cons_of_neg (Bool.eq_false_iff.mp stop)
  rw [List.takeWhile_append, none_taken, List.append_nil]
  split
  · rename_i whole
    exact ((List.takeWhile_prefix p).eq_of_length whole).symm
  · rfl

namespace Pattern

theorem matchAt_single (notAfter : Char → Bool) (ps : List Piece) (before : Option Char) (s : List Char) :
    (⟨notAfter, [ps]⟩ : Pattern).matchAt before s =
      if before.any notAfter then none else matchPieces ps s := by
  rw [matchAt, List.findSome?_cons, List.findSome?_nil]
  cases matchPieces ps s <;> rfl

theorem matchAt_anywhere (ps : List Piece) (before : Option Char) (s : List Char) :
    (of ps).matchAt before s = matchPieces ps s := by
  have free : before.any (fun _ => false) = false := by cases before <;> rfl
  rw [of, matchAt_single, free, if_neg Bool.false_ne_true]

theorem length_le_of_matchAt {p : Pattern} {before : Option Char} {s : List Char} {m : Match}
    (h : p.matchAt before s = some m) : m.length ≤ s.length := by
  obtain ⟨_, _, t, same, size, _⟩ := matchAt_of h
  rw [same, List.length_append, size]
  exact Nat.le_add_right _ _

/-- Whatever begins in the first part matches there as it does with the second part behind it. -/
def Parts (p : Pattern) (a s : List Char) : Prop :=
  ∀ x, x ≠ [] → x <:+ a → ∀ before,
    (p.matchAt before (x ++ s)).map (·.length) = (p.matchAt before x).map (·.length)

/-- The same with what really stands before a place of the first part. -/
def PartsFrom (p : Pattern) (before : Option Char) (a s : List Char) : Prop :=
  ∀ y x, a = y ++ x → x ≠ [] → (p.matchAt (y.getLast?.or before) (x ++ s)).map (·.length) =
    (p.matchAt (y.getLast?.or before) x).map (·.length)

section
variable {p : Pattern} {fresh a s : List Char} {before : Option Char}

theorem Parts.from (h : p.Parts a s) (before : Option Char) : p.PartsFrom before a s :=
  fun y x same some => h x some ⟨y, same.symm⟩ _

theorem PartsFrom.tail {c : Char} (h : p.PartsFrom before (c :: a) s) : p.PartsFrom (some c) a s := by
  intro y x same some
  have later := h (c :: y) x (by rw [same]; rfl) some
  rwa [getLast?_cons_or] at later

theorem replaceFrom_partsFrom (h : p.PartsFrom before a s) {n : Nat} (hn : n ≤ a.length) :
    p.replaceFrom fresh n before (a ++ s) =
      p.replaceFrom fresh n before a ++ p.replaceFrom fresh 0 (a.getLast?.or before) s := by
  induction a generalizing n before with
  | nil =>
      cases Nat.le_zero.mp hn
      cases before <;> rfl
  | cons c a ih =>
      rw [getLast?_cons_or]
      cases n with
      | succ n => exact ih h.tail (Nat.le_of_succ_le_succ hn)
      | zero =>
          have here := h [] (c :: a) rfl (List.cons_ne_nil c a)
          rw [List.getLast?_nil, Option.none_or] at here
          cases alone : p.matchAt before (c :: a) with
          | none =>
              rw [alone, Option.map_none, Option.map_eq_none_iff, List.cons_append] at here
              rw [List.cons_append, replaceFrom, here, replaceFrom, alone]
              exact congrArg (c :: ·) (ih h.tail (Nat.zero_le _))
          | some m =>
              rw [alone, Option.map_some] at here
              obtain ⟨m', joined, size⟩ := Option.map_eq_some_iff.mp here
              rw [List.cons_append] at joined
              have short : m.length - 1 ≤ a.length := by
                have := length_le_of_matchAt alone
                rw [List.length_cons] at this
                omega
              rw [List.cons_append, replaceFrom, joined, replaceFrom, alone]
              simp only
              rw [size, ih h.tail short, List.append_assoc]

theorem replaceAll_partsFrom (h : p.PartsFrom none a s) :
    p.replaceAll fresh (a ++ s) = p.replaceAll fresh a ++ p.replaceFrom fresh 0 a.getLast? s := by
  rw [replaceAll, replaceFrom_partsFrom h (Nat.zero_le _), Option.or_none]
  rfl

theorem replaceAll_parts (h : p.Parts a s) :
    p.replaceAll fresh (a ++ s) = p.replaceAll fresh a ++ p.replaceFrom fresh 0 a.getLast? s :=
  replaceAll_partsFrom (h.from none)

/-- A part in which no match begins stays. -/
theorem replaceFrom_unmatched (h : ∀ x, x ≠ [] → x <:+ a → ∀ before, p.matchAt before (x ++ s) = none) :
    p.replaceFrom fresh 0 before (a ++ s) = a ++ p.replaceFrom fresh 0 (a.getLast?.or before) s := by
  induction a generalizing before with
  | nil => cases before <;> rfl
  | cons c a ih =>
      have here := h (c :: a) (List.cons_ne_nil c a) List.suffix_rfl before
      rw [List.cons_append] at here
      rw [List.cons_append, replaceFrom, here, ih fun x some suffix => h x some (suffix.trans (List.suffix_cons c a)),
        getLast?_cons_or]
      rfl

/-- Behind a character that bars no match, a text is replaced as it is from its start. -/
theorem replaceFrom_free (free : before.any p.notAfter = false) :
    p.replaceFrom fresh 0 before s = p.replaceAll fresh s := by
  cases s with
  | nil => rfl
  | cons c s =>
      have same : p.matchAt before (c :: s) = p.matchAt none (c :: s) := by
        rw [matchAt, matchAt, free]
        rfl
      rw [replaceAll, replaceFrom, replaceFrom, same]

theorem searchFrom_cons_eq_none {c : Char} : p.searchFrom before (c :: s) = none ↔
    p.matchAt before (c :: s) = none ∧ p.searchFrom (some c) s = none := Option.or_eq_none_iff

/-- A text in which nothing is found stays. -/
theorem replaceFrom_of_searchFrom (h : p.searchFrom before s = none) : p.replaceFrom fresh 0 before s = s := by
  induction s generalizing before with
  | nil => rfl
  | cons c s ih =>
      obtain ⟨here, later⟩ := searchFrom_cons_eq_none.mp h
      rw [replaceFrom, here, ih later]

theorem searchFrom_of_append (h : p.searchFrom before (a ++ s) = none) :
    p.searchFrom (a.getLast?.or before) s = none := by
  induction a generalizing before with
  | nil => cases before <;> exact h
  | cons c a ih =>
      rw [getLast?_cons_or]
      exact ih (searchFrom_cons_eq_none.mp h).2

/-- A search goes on behind a part in which no match begins. -/
theorem searchFrom_skip (h : ∀ x, x ≠ [] → x <:+ a → ∀ before, p.matchAt before (x ++ s) = none) :
    p.searchFrom before (a ++ s) = p.searchFrom (a.getLast?.or before) s := by
  induction a generalizing before with
  | nil => cases before <;> rfl
  | cons c a ih =>
      have here := h (c :: a) (List.cons_ne_nil c a) List.suffix_rfl before
      rw [List.cons_append] at here
      rw [List.cons_append, searchFrom, here, Option.none_or,
        ih fun x some suffix => h x some (suffix.trans (List.suffix_cons c a)), getLast?_cons_or]

/-- Nothing is found in a part in which no match begins. -/
theorem searchFrom_unmatched (h : ∀ x, x ≠ [] → x <:+ a → ∀ before, p.matchAt before (x ++ s) = none)
    (rest : p.searchFrom (a.getLast?.or before) s = none) : p.searchFrom before (a ++ s) = none := by
  rw [searchFrom_skip h, rest]

/-- Where no match begins, it does not matter what stands before. -/
theorem replaceFrom_before (h : ∀ before, p.matchAt before s = none) :
    p.replaceFrom fresh 0 before s = p.replaceAll fresh s := by
  cases s with
  | nil => rfl
  | cons c s => rw [replaceAll, replaceFrom, replaceFrom, h, h]

/-- A match at the head of a text is replaced, and the rest goes on behind its last character. -/
theorem replaceFrom_matched (fresh : List Char) {t : List Char} {m : Match} (h : p.matchAt before (t ++ s) = some m)
    (size : m.length = t.length) (some : t ≠ []) :
    p.replaceFrom fresh 0 before (t ++ s) = fresh ++ p.replaceFrom fresh 0 t.getLast? s := by
  cases t with
  | nil => exact absurd rfl some
  | cons c t =>
      have skip := p.replaceFrom_drop fresh t.length (.some c) (t ++ s)
      rw [List.drop_left, List.take_left] at skip
      have last : (c :: t).getLast? = t.getLast?.or (.some c) := by
        rw [← getLast?_cons_or c t none, Option.or_none]
      rw [List.cons_append] at h
      rw [List.cons_append, replaceFrom, h, last, ← skip]
      simp only
      rw [size, List.length_cons, Nat.add_sub_cancel]

end

end Pattern

end ExportDiff.Text
