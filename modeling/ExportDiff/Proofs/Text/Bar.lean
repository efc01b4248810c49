/- A character that no match takes bars the way: the texts on its two sides are replaced apart. And an end of
a text that no match reaches stays, as an end of the result was there before if no replacement is in it. -/
import ExportDiff.Proofs.Text.Blank
import ExportDiff.Proofs.Text.Replace

namespace ExportDiff.Text

/-- Wherever the piece matches, it does not take the character. -/
def Piece.avoids (c : Char) : Piece → Bool
  | .chars w => w.all (· != c)
  | .exactly _ p | .run p | .gap p => !p c
  | _ => false

/-- Whatever the piece takes has the character in it. -/
def Piece.needs (c : Char) : Piece → Bool
  | .chars w => w.contains c
  | _ => false

section
variable {c : Char} {p : Char → Bool} {piece : Piece} {ps : List Piece} {t : List Char}

theorem Piece.Takes.avoids (avoid : piece.avoids c = true) (h : piece.Takes t) : c ∉ t := by
  have apart {p : Char → Bool} (other : (!p c) = true) (all : ∀ d ∈ t, p d = true) : c ∉ t := by
    intro member
    rw [all c member] at other
    cases other
  cases h with
  | chars w => simpa [Piece.avoids] using fun member => List.all_eq_true.mp avoid c member
  | exactly _ all => exact apart avoid all
  | run _ all => exact apart avoid all
  | gap all => exact apart avoid all
  | _ => cases avoid

theorem Spells.avoids (avoid : ps.all (Piece.avoids c) = true) (h : Spells ps t) : c ∉ t := by
  induction h with
  | nil => exact List.not_mem_nil
  | cons takes _ ih =>
      rw [List.all_cons, Bool.and_eq_true] at avoid
      rw [List.mem_append, not_or]
      exact ⟨takes.avoids avoid.1, ih avoid.2⟩

theorem Spells.needs (need : ps.any (Piece.needs c) = true) (h : Spells ps t) : c ∈ t := by
  induction h with
  | nil => cases need
  | @cons piece ps t u takes _ ih =>
      rw [List.any_cons, Bool.or_eq_true] at need
      rw [List.mem_append]
      refine need.imp (fun here => ?_) ih
      cases takes with
      | chars w => exact List.contains_iff_mem.mp here
      | _ => cases here

/-- The last piece takes the end of what the pieces spell. -/
theorem Spells.concat (h : Spells (ps ++ [piece]) t) : ∃ a b, t = a ++ b ∧ piece.Takes b := by
  induction ps generalizing t with
  | nil =>
      cases h with
      | cons takes rest =>
          cases rest
          exact ⟨[], _, List.append_nil _, takes⟩
  | cons q ps ih =>
      cases h with
      | cons _ rest =>
          obtain ⟨a, b, rfl, takes⟩ := ih rest
          exact ⟨_, b, (List.append_assoc _ a b).symm, takes⟩

/-- The match in a text with more behind it. -/
def Match.followedBy (t : List Char) (m : Match) : Match := { m with rest := m.rest ++ t }

theorem stripBy_avoids {w : List Char} (avoid : (Piece.chars w).avoids c = true) (x s : List Char) :
    stripBy (· == ·) w (x ++ c :: s) = (stripBy (· == ·) w x).map (· ++ c :: s) := by
  induction w generalizing x with
  | nil => rfl
  | cons d w ih =>
      rw [Piece.avoids, List.all_cons, Bool.and_eq_true, bne_iff_ne] at avoid
      cases x with
      | nil => rw [List.nil_append, stripBy, stripBy, if_neg (mt beq_iff_eq.mp avoid.1), Option.map_none]
      | cons e x =>
          rw [List.cons_append, stripBy, stripBy]
          split
          · exact ih avoid.2 x
          · rfl

theorem takeExactly_avoids (avoid : p c = false) (n : Nat) (x s : List Char) :
    takeExactly p n (x ++ c :: s) = (takeExactly p n x).map fun (t, r) => (t, r ++ c :: s) := by
  induction n generalizing x with
  | zero => rfl
  | succ n ih =>
      cases x with
      | nil => simp [takeExactly, avoid]
      | cons d x =>
          rw [List.cons_append, takeExactly, takeExactly, ih]
          split
          · rw [Option.map_map, Option.map_map]
            rfl
          · rfl

theorem matchPieces_avoids (avoid : ps.all (Piece.avoids c) = true) (x s : List Char) :
    matchPieces ps (x ++ c :: s) = (matchPieces ps x).map (Match.followedBy (c :: s)) := by
  induction ps generalizing x with
  | nil => rfl
  | cons piece ps ih =>
      rw [List.all_cons, Bool.and_eq_true] at avoid
      obtain ⟨first, others⟩ := avoid
      have later (n : Nat) (r : List Char) : (matchPieces ps (r ++ c :: s)).map (Match.after n) =
          ((matchPieces ps r).map (Match.after n)).map (Match.followedBy (c :: s)) := by
        rw [ih others, Option.map_map, Option.map_map]
        rfl
      have stop {p : Char → Bool} (avoid : (!p c) = true) : (c :: s).head?.any p = false := by simpa using avoid
      cases piece with
      | chars w =>
          rw [matchPieces, matchPieces, stripBy_avoids first]
          cases stripBy (· == ·) w x with
          | none => rfl
          | some r => exact later w.length r
      | exactly n p =>
          rw [matchPieces, matchPieces, takeExactly_avoids (by simpa using stop first)]
          cases takeExactly p n x with
          | none => rfl
          | some tr => exact later n tr.2
      | run p =>
          have head : (x ++ c :: s).head?.any p = x.head?.any p := by
            cases x with
            | nil => exact stop first
            | cons d x => rfl
          rw [matchPieces, matchPieces, head, takeWhile_append_of_stop (stop first),
            dropWhile_append_of_stop (stop first), later]
          split <;> rfl
      | gap p =>
          rw [matchPieces, matchPieces, takeWhile_append_of_stop (stop first),
            dropWhile_append_of_stop (stop first), later]
      | _ => cases first

theorem prefix_of_not_mem {u v s : List Char} (hu : c ∉ u) (h : u <+: v ++ c :: s) : u <+: v := by
  rcases List.prefix_or_prefix_of_prefix h (List.prefix_append v (c :: s)) with short | ⟨w, rfl⟩
  · exact short
  · cases w with
    | nil => exact ⟨[], by simp⟩
    | cons d w =>
        obtain ⟨rfl, _⟩ := List.cons_prefix_cons.mp ((List.prefix_append_right_inj v).mp h)
        exact absurd (List.mem_append_right v List.mem_cons_self) hu

/-- None of the texts that the pieces take begins with the character. -/
def startsElsewhere (c : Char) : List Piece → Bool
  | .chars (d :: _) :: _ => d != c
  | .run p :: _ => !p c
  | .gap p :: ps => !p c && startsElsewhere c ps
  | _ => false

theorem matchPieces_startsElsewhere (h : startsElsewhere c ps = true) (s : List Char) :
    matchPieces ps (c :: s) = none := by
  induction ps using startsElsewhere.induct with
  | case1 d w ps => rw [matchPieces, stripBy, if_neg (mt beq_iff_eq.mp (bne_iff_ne.mp h)), Option.bind_none]
  | case2 p ps =>
      have none : p c = false := by simpa [startsElsewhere] using h
      rw [matchPieces, List.head?_cons, Option.any_some, none, if_neg Bool.false_ne_true]
  | case3 p ps ih =>
      obtain ⟨none, later⟩ : p c = false ∧ startsElsewhere c ps = true := by simpa [startsElsewhere] using h
      rw [matchPieces, List.dropWhile_cons_of_neg (Bool.eq_false_iff.mp none), ih later, Option.map_none]
  | case4 => simp [startsElsewhere] at h

end

namespace Pattern

/-- No match takes the character, and none is empty. -/
def bars (p : Pattern) (c : Char) : Bool :=
  p.alternatives.all fun ps => ps.all (Piece.avoids c) && (matchPieces ps []).isNone

section
variable {p : Pattern} {c : Char} {fresh a s u : List Char} {before : Option Char}

theorem matchAt_bar (bar : p.bars c = true) (before : Option Char) (x s : List Char) :
    p.matchAt before (x ++ c :: s) = (p.matchAt before x).map (Match.followedBy (c :: s)) := by
  rw [matchAt, matchAt]
  split
  · rfl
  · have each := List.all_eq_true.mp bar
    generalize p.alternatives = alternatives at each
    induction alternatives with
    | nil => rfl
    | cons ps alternatives ih =>
        obtain ⟨first, others⟩ := List.forall_mem_cons.mp each
        rw [Bool.and_eq_true] at first
        rw [List.findSome?_cons, List.findSome?_cons, matchPieces_avoids first.1]
        cases matchPieces ps x with
        | none => exact ih others
        | some m => rfl

theorem matchAt_bar_head (bar : p.bars c = true) (before : Option Char) (s : List Char) :
    p.matchAt before (c :: s) = none := by
  have alone := matchAt_bar bar before [] s
  rw [List.nil_append] at alone
  rw [alone, Option.map_eq_none_iff, matchAt]
  split
  · rfl
  · refine List.findSome?_eq_none_iff.mpr fun ps member => ?_
    have := List.all_eq_true.mp bar ps member
    rw [Bool.and_eq_true, Option.isNone_iff_eq_none] at this
    exact this.2

theorem parts_of_bar (bar : p.bars c = true) (a s : List Char) : p.Parts a (c :: s) := by
  intro x _ _ before
  rw [matchAt_bar bar, Option.map_map]
  rfl

/-- A match takes the character at its head and nowhere else, so none goes on to where it stands again. -/
theorem parts_of_head {ps : List Piece} (avoid : ps.all (Piece.avoids c) = true) (a s : List Char) :
    (of (.chars [c] :: ps)).Parts a (c :: s) := by
  intro x some _ before
  cases x with
  | nil => exact absurd rfl some
  | cons d x =>
      rw [matchAt_anywhere, matchAt_anywhere, List.cons_append, matchPieces, matchPieces]
      by_cases first : c = d
      · have strip (t : List Char) : stripBy (· == ·) [c] (d :: t) = .some t := by
          rw [first, stripBy_eq_iff]
          rfl
        rw [strip, strip, Option.bind_some, Option.bind_some, matchPieces_avoids avoid, Option.map_map,
          Option.map_map, Option.map_map]
        rfl
      · have strip (t : List Char) : stripBy (· == ·) [c] (d :: t) = none := if_neg (mt beq_iff_eq.mp first)
        rw [strip, strip]

theorem replaceAll_bar (bar : p.bars c = true) (fresh a s : List Char) :
    p.replaceAll fresh (a ++ c :: s) = p.replaceAll fresh a ++ c :: p.replaceFrom fresh 0 (some c) s := by
  rw [replaceAll_parts (parts_of_bar bar a s), replaceFrom, matchAt_bar_head bar]

/-- Where a match may follow the character, the texts on its two sides are replaced as each of them is alone. -/
theorem replaceAll_parted (bar : p.bars c = true) (free : p.notAfter c = false) (fresh a s : List Char) :
    p.replaceAll fresh (a ++ c :: s) = p.replaceAll fresh a ++ c :: p.replaceAll fresh s := by
  have behind : (some c).any p.notAfter = false := free
  rw [replaceAll_bar bar, replaceFrom_free behind]

theorem matchAt_startsElsewhere (elsewhere : p.alternatives.all (startsElsewhere c) = true)
    (before : Option Char) (s : List Char) : p.matchAt before (c :: s) = none := by
  rw [matchAt]
  split
  · rfl
  · have each := List.all_eq_true.mp elsewhere
    exact List.findSome?_eq_none_iff.mpr fun ps member => matchPieces_startsElsewhere (each ps member) s

theorem replaceFrom_startsElsewhere (fresh : List Char)
    (elsewhere : ∀ c ∈ a, p.alternatives.all (startsElsewhere c) = true) (before : Option Char) (s : List Char) :
    p.replaceFrom fresh 0 before (a ++ s) = a ++ p.replaceFrom fresh 0 (a.getLast?.or before) s := by
  refine replaceFrom_unmatched fun x some suffix before => ?_
  cases x with
  | nil => exact absurd rfl some
  | cons c x => exact matchAt_startsElsewhere (elsewhere c (suffix.subset List.mem_cons_self)) before _

/-- Where nothing of the replacement is found, nothing was replaced. -/
theorem replaceFrom_eq_self (hc : c ∈ fresh) (h : c ∉ p.replaceFrom fresh 0 before s) :
    p.replaceFrom fresh 0 before s = s := by
  induction s generalizing before with
  | nil => rfl
  | cons d s ih =>
      rcases p.replaceFrom_cons fresh before d s with ⟨m, b, _, same⟩ | ⟨_, same⟩
      · exact absurd (same ▸ List.mem_append_left _ hc) h
      · rw [same, List.mem_cons, not_or] at h
        rw [same, ih h.2]

/-- An end of the result was there before if the replacement ends in a character that it does not have. -/
theorem suffix_of_replaceFrom (last : fresh.getLast? = some c) (hu : c ∉ u) {n : Nat}
    (h : u <:+ p.replaceFrom fresh n before s) : u <:+ s := by
  induction s generalizing n before with
  | nil => cases n <;> exact h
  | cons d s ih =>
      cases n with
      | succ n => exact (ih h).trans (List.suffix_cons d s)
      | zero =>
          cases here : p.matchAt before (d :: s) with
          | some m =>
              rw [replaceFrom, here] at h
              rcases List.suffix_or_suffix_of_suffix h (List.suffix_append fresh _) with inside | ⟨x, rfl⟩
              · exact (ih inside).trans (List.suffix_cons d s)
              · -- What `u` has before the rest is an end of the replacement, and so empty.
                obtain ⟨y, same⟩ := h
                rw [← List.append_assoc, List.append_cancel_right_eq] at same
                rw [← same, List.getLast?_append] at last
                cases ends : x.getLast? with
                | none =>
                    have empty := List.getLast?_eq_none_iff.mp ends
                    exact (ih ⟨[], by rw [empty]; rfl⟩).trans (List.suffix_cons d s)
                | some e =>
                    rw [ends, Option.some_or, Option.some.injEq] at last
                    exact absurd (List.mem_append_left _ (List.mem_of_getLast? (last ▸ ends))) hu
          | none =>
              rw [replaceFrom, here] at h
              rcases List.suffix_cons_iff.mp h with rfl | inside
              · have stays := replaceFrom_eq_self (List.mem_of_getLast? last) (mt (List.mem_cons_of_mem d) hu)
                rw [stays]
              · exact (ih inside).trans (List.suffix_cons d s)

/-- A head of the result was there before if every match begins as its replacement does, up to a character that
the head does not have. -/
theorem prefix_of_replaceFrom {v w : List Char} (begins : ∀ ps ∈ p.alternatives, ∀ t, Spells ps t → v <+: t)
    (hu : c ∉ u) (h : u <+: p.replaceFrom (v ++ c :: w) 0 before s) : u <+: s := by
  induction s generalizing u before with
  | nil => exact h
  | cons d s ih =>
      rcases p.replaceFrom_cons (v ++ c :: w) before d s with ⟨m, b, here, same⟩ | ⟨_, same⟩
      · obtain ⟨ps, member, t, split, _, spelled⟩ := matchAt_of here
        rw [same, List.append_assoc] at h
        calc u <+: v := prefix_of_not_mem hu h
          _ <+: t := begins ps member t spelled
          _ <+: d :: s := ⟨m.rest, split.symm⟩
      · rw [same] at h
        cases u with
        | nil => exact List.nil_prefix
        | cons e u =>
            obtain ⟨rfl, later⟩ := List.cons_prefix_cons.mp h
            exact List.cons_prefix_cons.mpr ⟨rfl, ih (mt (List.mem_cons_of_mem e) hu) later⟩

/-- An end stays in which no match begins and which none reaches. -/
theorem suffix_replaceFrom (fresh : List Char) (within : ∀ v, v <:+ u → ∀ before, p.matchAt before v = none)
    (reach : ∀ ps ∈ p.alternatives, ∀ t, Spells ps t → ∀ y, y ≠ [] → y <+: u → ¬ y <:+ t)
    (before : Option Char) (a : List Char) : u <:+ p.replaceFrom fresh 0 before (a ++ u) := by
  induction size : a.length using Nat.strong_induction_on generalizing a before with
  | _ n ih =>
      cases a with
      | nil =>
          have none : ∀ x, x ≠ [] → x <:+ u → ∀ before, p.matchAt before (x ++ []) = none := fun x _ suffix => by
            rw [List.append_nil]
            exact within x suffix
          have stays : p.replaceFrom fresh 0 before (u ++ []) = _ := replaceFrom_unmatched none
          rw [List.append_nil] at stays
          rw [List.nil_append, stays]
          cases u.getLast?.or before <;> simp [replaceFrom]
      | cons d a =>
          have shorter : a.length < n := by
            rw [← size, List.length_cons]
            exact Nat.lt_succ_self _
          rw [List.cons_append]
          rcases p.replaceFrom_cons fresh before d (a ++ u) with ⟨m, b, here, same⟩ | ⟨here, same⟩
          · obtain ⟨ps, member, t, split, length, spelled⟩ := matchAt_of here
            have short : t.length - 1 ≤ a.length := by
              by_contra long
              rw [← List.cons_append] at split
              have fits : (d :: a).length ≤ t.length := by
                rw [List.length_cons]
                omega
              obtain ⟨y, rfl⟩ := List.prefix_of_prefix_length_le ⟨u, rfl⟩ ⟨m.rest, split.symm⟩ fits
              rw [List.append_assoc, List.append_cancel_left_eq] at split
              refine reach ps member _ spelled y ?_ ⟨m.rest, split.symm⟩ (List.suffix_append _ y)
              rintro rfl
              exact long (by simp)
            rw [same, ← length, List.drop_append_of_le_length short]
            have shorter : (a.drop (t.length - 1)).length < n :=
              Nat.lt_of_le_of_lt (List.drop_sublist _ a).length_le shorter
            exact (ih _ shorter b _ rfl).trans (List.suffix_append fresh _)
          · rw [same]
            exact (ih _ shorter (some d) a rfl).trans (List.suffix_cons d _)

end

end Pattern

end ExportDiff.Text
