/- The wires of a branching step stand together, and no other one leaves its node or comes to its closing node. -/
import ExportDiff.Proofs.Flow.Wiring

namespace ExportDiff.Flow

namespace Step

section
variable {m : Nat} {t : Step} {steps : List Step}

theorem lastExit_ne_of (branching : t.isBranching)
    (each : ∀ s ∈ steps, ∀ n, (m + 1, t) ∈ s.numbered n → s.exit n ≠ m + 1) {p n : Nat}
    (member : (m + 1, t) ∈ numberedAll n steps) : lastExit p n steps ≠ m + 1 := by
  induction steps generalizing p n with
  | nil => cases member
  | cons s rest ih =>
      obtain ⟨here, others⟩ := List.forall_mem_cons.mp each
      rw [numberedAll, List.mem_append] at member
      rw [lastExit]
      obtain first | later := member
      · -- A further step is left from a later number; without one the step itself decides.
        have range := (s.outline n).bounds _ _ first
        have takes := two_le_size branching
        have last := lastExit_bounds (s.exit n) (n + s.size) (exit_bounds n s).2 rest
        cases rest with
        | nil =>
            rw [lastExit]
            exact here n first
        | cons r more =>
            have := last.2.2 (List.cons_ne_nil r more)
            omega
      · exact ih others later

/-- Branching steps are left from the node that closes them, never from their own. -/
theorem exit_ne (branching : t.isBranching) (s : Step) (n : Nat) (member : (m + 1, t) ∈ s.numbered n) :
    s.exit n ≠ m + 1 := by
  induction s using shape_induction generalizing n with
  | chain s plain each =>
      rw [numbered_chain n plain, List.mem_cons, Prod.mk.injEq] at member
      rw [exit_chain n plain]
      obtain ⟨_, rfl⟩ | inside := member
      · rw [branching] at plain
        cases plain
      · have range := (outlineAll s.chain (n + 1)).bounds _ _ inside
        split
        · omega
        · exact lastExit_ne_of branching each inside
  | branches s forks each =>
      rw [numbered_branching n forks, List.mem_cons, Prod.mk.injEq] at member
      rw [exit_branching n forks]
      obtain ⟨same, _⟩ | inside := member
      · omega
      · have range := (outlineParts s.parts (n + 2)).bounds _ _ inside
        omega

theorem lastExit_ne (branching : t.isBranching) (p n : Nat) (member : (m + 1, t) ∈ numberedAll n steps) :
    lastExit p n steps ≠ m + 1 :=
  lastExit_ne_of branching (fun s _ => exit_ne branching s) member

end

end Step

/-- It leaves the node `m + 1` at most for a handler, and does not lead to the one after it. -/
def Wire.Apart (m : Nat) (w : Wire) : Prop :=
  (w.source = m + 1 → w.entry.kind = .error) ∧ w.target ≠ m + 2

theorem Wire.Apart.of_ne {m : Nat} {w : Wire} (source : w.source ≠ m + 1) (target : w.target ≠ m + 2) :
    w.Apart m :=
  ⟨fun same => (source same).elim, target⟩

/-- The wires of a step that is numbered `m + 1` stand together, and the others are apart from them. -/
def Located (m : Nat) (t : Step) (ws : List Wire) : Prop :=
  ∃ before after, ws = before ++ (t.wires m ++ after) ∧ (∀ w ∈ before, w.Apart m) ∧ ∀ w ∈ after, w.Apart m

section
variable {m : Nat} {t : Step} {xs ys : List Wire}

theorem Located.refl (m : Nat) (t : Step) : Located m t (t.wires m) :=
  ⟨[], [], (List.append_nil _).symm, by simp, by simp⟩

theorem Located.append_left (h : Located m t ys) (apart : ∀ w ∈ xs, w.Apart m) :
    Located m t (xs ++ ys) := by
  obtain ⟨before, after, rfl, earlier, later⟩ := h
  refine ⟨xs ++ before, after, (List.append_assoc ..).symm, ?_, later⟩
  intro w member
  exact (List.mem_append.mp member).elim (apart w) (earlier w)

theorem Located.append_right (h : Located m t xs) (apart : ∀ w ∈ ys, w.Apart m) :
    Located m t (xs ++ ys) := by
  obtain ⟨before, after, rfl, earlier, later⟩ := h
  refine ⟨before, after ++ ys, by simp only [List.append_assoc], earlier, ?_⟩
  intro w member
  exact (List.mem_append.mp member).elim (later w) (apart w)

end

namespace Step

section
variable {m : Nat} {t : Step} {steps : List Step} {parts : List (Entry × List Step)}

-- Both numbers of the branching step lie in the run of the step that holds it, apart from all others.

theorem wiresAll_located_of (branching : t.isBranching)
    (each : ∀ s ∈ steps, ∀ n, (m + 1, t) ∈ s.numbered n → Located m t (s.wires n)) (entry : Entry)
    {p : Option Nat} {n : Nat} (before : ∀ k ∈ p, k ≤ n) (member : (m + 1, t) ∈ numberedAll n steps) :
    Located m t (wiresAll entry p n steps) := by
  induction steps generalizing entry p n with
  | nil => cases member
  | cons s rest ih =>
      obtain ⟨here, others⟩ := List.forall_mem_cons.mp each
      have exits := exit_bounds n s
      have takes := two_le_size branching
      have enters : ∀ w ∈ wiresFrom p (n + 1) entry, w.source ≤ n ∧ w.target = n + 1 := by
        intro w into
        obtain ⟨k, parent, rfl⟩ := List.mem_map.mp into
        exact ⟨before k (Option.mem_toList.mp parent), rfl⟩
      rw [numberedAll, List.mem_append] at member
      rw [wiresAll]
      obtain first | later := member
      · have range := (s.outline n).bounds _ _ first
        have left := exit_ne branching s n first
        refine ((here n first).append_left fun w into => ?_).append_right fun w after => ?_
        · have := enters w into
          exact .of_ne (by omega) (by omega)
        · have := wiresAll_within .plain (s.exit n) (n + s.size) exits.2 rest after
          exact .of_ne (by omega) (by omega)
      · have range := (outlineAll rest (n + s.size)).bounds _ _ later
        refine (ih others .plain ?_ later).append_left fun w earlier => ?_
        · simpa using exits.2
        · obtain into | inside := List.mem_append.mp earlier
          · have := enters w into
            exact .of_ne (by omega) (by omega)
          · have := s.wires_within n w inside
            rw [Wire.Within] at this
            exact .of_ne (by omega) (by omega)

theorem wiresPart_located_of (branching : t.isBranching) {p : Entry × List Step}
    (each : ∀ s ∈ p.2, ∀ n, (m + 1, t) ∈ s.numbered n → Located m t (s.wires n)) {k n : Nat}
    (before : k < n) (member : (m + 1, t) ∈ numberedAll n p.2) : Located m t (wiresPart k n p) := by
  have range := (outlineAll p.2 n).bounds _ _ member
  have left := lastExit_ne branching k n member
  have takes := two_le_size branching
  unfold wiresPart
  split
  · next none =>
      rw [List.isEmpty_iff.mp none] at member
      cases member
  · refine (wiresAll_located_of branching each p.1 ?_ member).append_right fun w out => ?_
    · simpa using before.le
    · obtain rfl := List.mem_singleton.mp out
      exact .of_ne left (by dsimp only; omega)

theorem wiresParts_located_of (branching : t.isBranching)
    (each : ∀ p ∈ parts, ∀ s ∈ p.2, ∀ n, (m + 1, t) ∈ s.numbered n → Located m t (s.wires n)) {k n : Nat}
    (before : k < n) (member : (m + 1, t) ∈ numberedParts n parts) : Located m t (wiresParts k n parts) := by
  induction parts generalizing n with
  | nil => cases member
  | cons p rest ih =>
      obtain ⟨here, others⟩ := List.forall_mem_cons.mp each
      have takes := two_le_size branching
      rw [numberedParts, List.mem_append] at member
      rw [wiresParts]
      obtain first | later := member
      · have range := (outlineAll p.2 n).bounds _ _ first
        refine (wiresPart_located_of branching here before first).append_right fun w after => ?_
        have := wiresParts_within k (n + sizeAll p.2) (by omega) rest after
        exact .of_ne (by omega) (by omega)
      · have range := (outlineParts rest (n + sizeAll p.2)).bounds _ _ later
        refine (ih others (n := n + sizeAll p.2) (by omega) later).append_left fun w earlier => ?_
        have := wiresPart_within k n before p earlier
        exact .of_ne (by omega) (by omega)

theorem wires_located (branching : t.isBranching) (s : Step) (n : Nat)
    (member : (m + 1, t) ∈ s.numbered n) : Located m t (s.wires n) := by
  have takes := two_le_size branching
  induction s using shape_induction generalizing n with
  | chain s plain each =>
      rw [numbered_chain n plain, List.mem_cons, Prod.mk.injEq] at member
      obtain ⟨_, rfl⟩ | inside := member
      · rw [branching] at plain
        cases plain
      · have range := (outlineAll s.chain (n + 1)).bounds _ _ inside
        have left := lastExit_ne branching (n + 1) (n + 1) inside
        rw [wires_chain n plain]
        have within := wiresAll_located_of branching each .plain (p := some (n + 1)) (by simp) inside
        refine (within.append_right fun w back => ?_).append_right fun w aside => ?_
        · obtain ⟨_, _, rfl⟩ := loopWire?_eq_some (Option.mem_toList.mp back)
          exact .of_ne left (by dsimp only; omega)
        · have handler := wiresHandlers_within (n + 1) (n + 1 + sizeAll s.chain) s.handlers w aside
          exact ⟨fun _ => by rw [handler.2.1]; rfl, by omega⟩
  | branches s forks each =>
      rw [numbered_branching n forks, List.mem_cons, Prod.mk.injEq, Nat.add_right_cancel_iff] at member
      obtain ⟨rfl, rfl⟩ | inside := member
      · exact .refl m t
      · have range := (outlineParts s.parts (n + 2)).bounds _ _ inside
        rw [wires_branching n forks]
        have within := wiresParts_located_of branching each (Nat.lt_succ_self (n + 1)) inside
        refine within.append_right fun w direct => ?_
        obtain rfl := mem_of_mem_ite direct
        exact .of_ne (by dsimp only; omega) (by dsimp only; omega)

theorem wiresAll_located (branching : t.isBranching) (entry : Entry) {p : Option Nat} {n : Nat}
    (before : ∀ k ∈ p, k ≤ n) (member : (m + 1, t) ∈ numberedAll n steps) :
    Located m t (wiresAll entry p n steps) :=
  wiresAll_located_of branching (fun s _ => wires_located branching s) entry before member

end

end Step

end ExportDiff.Flow
