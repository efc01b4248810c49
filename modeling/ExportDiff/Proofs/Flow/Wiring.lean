/- The links of a process told from its steps alone, between the numbers of their nodes. -/
import ExportDiff.Proofs.Flow.Numbering

namespace ExportDiff.Flow

/-- A link between the nodes of two numbers. -/
structure Wire where
  source : Nat
  target : Nat
  entry : Entry

def Wire.ends (w : Wire) : Ends := (nodeId w.source, nodeId w.target, w.entry.kind, w.entry.label)

def Entry.loop : Entry := ⟨.conditional, some "loop"⟩

def Entry.error : Entry := ⟨.error, some "error"⟩

/-- The links to handlers, which take the numbers after `n`. -/
def wiresHandlers (anchor n : Nat) : List Handler → List Wire
  | [] => []
  | _ :: rest => ⟨anchor, n + 1, .error⟩ :: wiresHandlers anchor (n + 1) rest

def wiresFrom (parent : Option Nat) (target : Nat) (entry : Entry) : List Wire :=
  parent.toList.map fun p => ⟨p, target, entry⟩

namespace Step

mutual

/-- The links within a step when `n` ids are taken before, in the order in which they are drawn. -/
def wires (n : Nat) : Step → List Wire
  | .plain _ => []
  | .sequence _ body => wiresAll .plain (some (n + 1)) (n + 1) body
  | .parallel _ branches =>
      wiresParallel (n + 1) (n + 2) branches ++ if branches.isEmpty then [⟨n + 1, n + 2, .plain⟩] else []
  | .conditional _ branches =>
      wiresBranches (n + 1) (n + 2) branches ++ if branches.isEmpty then [⟨n + 1, n + 2, .plain⟩] else []
  | .loop _ body =>
      wiresAll .plain (some (n + 1)) (n + 1) body ++
        if !body.isEmpty then [⟨lastExit (n + 1) (n + 1) body, n + 1, .loop⟩] else []
  | .scope _ body handlers =>
      wiresAll .plain (some (n + 1)) (n + 1) body ++ wiresHandlers (n + 1) (n + 1 + sizeAll body) handlers

/-- The same for a chain and for the way into it. -/
def wiresAll (entry : Entry) (parent : Option Nat) (n : Nat) : List Step → List Wire
  | [] => []
  | s :: rest =>
      wiresFrom parent (n + 1) entry ++ s.wires n ++ wiresAll .plain (some (s.exit n)) (n + s.size) rest

/-- The same for the branches of the node `k`, which the node after it closes. -/
def wiresParallel (k n : Nat) : List Step → List Wire
  | [] => []
  | s :: rest =>
      ⟨k, n + 1, .plain⟩ :: s.wires n ++ ⟨s.exit n, k + 1, .plain⟩ :: wiresParallel k (n + s.size) rest

def wiresBranches (k n : Nat) : List (String × List Step) → List Wire
  | [] => []
  | (label, body) :: rest =>
      (if body.isEmpty then [⟨k, k + 1, ⟨.conditional, some label⟩⟩]
        else wiresAll ⟨.conditional, some label⟩ (some k) n body ++ [⟨lastExit k n body, k + 1, .plain⟩]) ++
        wiresBranches k (n + sizeAll body) rest

end

/-- The wires of a branch of the node `k`, of either kind, which the node after it closes. -/
def wiresPart (k n : Nat) (p : Entry × List Step) : List Wire :=
  if p.2.isEmpty then [⟨k, k + 1, p.1⟩]
  else wiresAll p.1 (some k) n p.2 ++ [⟨lastExit k n p.2, k + 1, .plain⟩]

def wiresParts (k n : Nat) : List (Entry × List Step) → List Wire
  | [] => []
  | p :: rest => wiresPart k n p ++ wiresParts k (n + sizeAll p.2) rest

theorem wiresParallel_eq (k n : Nat) (branches : List Step) :
    wiresParallel k n branches = wiresParts k n (branches.map fun s => (.plain, [s])) := by
  induction branches generalizing n with
  | nil => rw [wiresParallel, List.map_nil, wiresParts]
  | cons s rest ih =>
      rw [wiresParallel, List.map_cons, wiresParts, ih]
      simp [wiresPart, wiresAll, wiresFrom, lastExit, sizeAll]

theorem wiresBranches_eq (k n : Nat) (branches : List (String × List Step)) :
    wiresBranches k n branches =
      wiresParts k n (branches.map fun b => (⟨.conditional, some b.1⟩, b.2)) := by
  induction branches generalizing n with
  | nil => rw [wiresBranches, List.map_nil, wiresParts]
  | cons b rest ih => rw [wiresBranches, List.map_cons, wiresParts, wiresPart, ih]

end Step

/-- The link back that a numbered step calls for: a loop that holds a step has one from where its
body ends. -/
def loopBack? : Nat × Step → Option Ends
  | (k, .loop _ (s :: rest)) =>
      some (nodeId (Step.lastExit k k (s :: rest)), nodeId k, .conditional, some "loop")
  | _ => none

def loopBacks (steps : List (Nat × Step)) : List Ends := steps.filterMap loopBack?

/-- The same between numbers. -/
def loopWire? : Nat × Step → Option Wire
  | (k, .loop _ (s :: rest)) => some ⟨Step.lastExit k k (s :: rest), k, .loop⟩
  | _ => none

def loopWires (steps : List (Nat × Step)) : List Wire := steps.filterMap loopWire?

theorem map_ends_loopWire? (p : Nat × Step) : (loopWire? p).map Wire.ends = loopBack? p := by
  unfold loopWire? loopBack?
  split <;> rfl

theorem map_ends_loopWires (steps : List (Nat × Step)) :
    (loopWires steps).map Wire.ends = loopBacks steps := by
  rw [loopWires, List.map_filterMap, loopBacks]
  exact congrArg (List.filterMap · steps) (funext map_ends_loopWire?)

theorem loopWire?_eq (k : Nat) (s : Step) : loopWire? (k, s) =
    if s.isLoop ∧ s.chain ≠ [] then some ⟨Step.lastExit k k s.chain, k, .loop⟩ else none := by
  cases s with
  | loop h body =>
      cases body with
      | nil => exact (if_neg fun some => some.2 rfl).symm
      | cons s rest => exact (if_pos ⟨rfl, List.cons_ne_nil s rest⟩).symm
  | _ => exact (if_neg fun loop => by cases loop.1).symm

theorem loopWire?_eq_some {k : Nat} {s : Step} {w : Wire} (h : loopWire? (k, s) = some w) :
    s.isLoop ∧ s.chain ≠ [] ∧ w = ⟨Step.lastExit k k s.chain, k, .loop⟩ := by
  rw [loopWire?_eq, Option.ite_none_right_eq_some, Option.some.injEq] at h
  exact ⟨h.1.1, h.1.2, h.2.symm⟩

theorem loopBack?_eq (k : Nat) (s : Step) : loopBack? (k, s) = if s.isLoop ∧ s.chain ≠ [] then
    some (nodeId (Step.lastExit k k s.chain), nodeId k, .conditional, some "loop") else none := by
  rw [← map_ends_loopWire?, loopWire?_eq, apply_ite (Option.map Wire.ends)]
  rfl

/-- What ends elsewhere than at the loop itself is a chain with a step in it. -/
theorem isLoop_and_lastExit_ne_iff (k : Nat) (s : Step) :
    (s.isLoop ∧ nodeId (Step.lastExit k k s.chain) ≠ nodeId k) ↔ s.isLoop ∧ s.chain ≠ [] := by
  cases s.chain with
  | nil => simp [Step.lastExit]
  | cons t rest => simp [Step.nodeId_lastExit_ne k t rest]

namespace Step

section
variable {s : Step} (n : Nat)

theorem wires_chain (plain : s.isBranching = false) :
    s.wires n = wiresAll .plain (some (n + 1)) (n + 1) s.chain ++ (loopWire? (n + 1, s)).toList ++
      wiresHandlers (n + 1) (n + 1 + sizeAll s.chain) s.handlers := by
  cases s with
  | parallel | conditional => cases plain
  | loop h body => cases body <;> simp [wires, chain, handlers, wiresHandlers, loopWire?]
  | _ => simp [wires, chain, handlers, wiresAll, wiresHandlers, loopWire?]

theorem wires_branching (branching : s.isBranching) :
    s.wires n = wiresParts (n + 1) (n + 2) s.parts ++
      if s.parts.isEmpty then [⟨n + 1, n + 2, .plain⟩] else [] := by
  cases s with
  | parallel h branches => rw [wires, parts, wiresParallel_eq, List.isEmpty_map]
  | conditional h branches => rw [wires, parts, wiresBranches_eq, List.isEmpty_map]
  | _ => cases branching

theorem loopWire?_branching (branching : s.isBranching) : loopWire? (n, s) = none := by
  cases s with
  | loop => cases branching
  | _ => rfl

/-- The links back within a step, of which its own one comes first. -/
theorem loopWires_chain (plain : s.isBranching = false) : loopWires (s.numbered n) =
    (loopWire? (n + 1, s)).toList ++ loopWires (numberedAll (n + 1) s.chain) := by
  rw [numbered_chain n plain, loopWires, List.filterMap_cons]
  cases loopWire? (n + 1, s) with
  | none => rfl
  | some w => rfl

theorem loopWires_branching (branching : s.isBranching) :
    loopWires (s.numbered n) = loopWires (numberedParts (n + 2) s.parts) := by
  rw [numbered_branching n branching, loopWires,
    List.filterMap_cons_none (loopWire?_branching (n + 1) branching)]
  rfl

theorem loopBacks_chain (plain : s.isBranching = false) : loopBacks (s.numbered n) =
    (loopBack? (n + 1, s)).toList ++ loopBacks (numberedAll (n + 1) s.chain) := by
  rw [← map_ends_loopWires, loopWires_chain n plain, List.map_append, map_ends_loopWires,
    ← Option.toList_map, map_ends_loopWire?]

theorem loopBacks_branching (branching : s.isBranching) :
    loopBacks (s.numbered n) = loopBacks (numberedParts (n + 2) s.parts) := by
  rw [← map_ends_loopWires, loopWires_branching n branching, map_ends_loopWires]

end

end Step

theorem mem_of_mem_ite {α : Type} {b : Bool} {x y : α} (h : x ∈ if b then [y] else []) : x = y := by
  cases b with
  | true => exact List.mem_singleton.mp h
  | false => cases h

theorem wiresHandlers_within (k n : Nat) (handlers : List Handler) :
    ∀ w ∈ wiresHandlers k n handlers, w.source = k ∧ w.entry = .error ∧ n < w.target ∧
      w.target ≤ n + handlers.length := by
  induction handlers generalizing n with
  | nil => simp [wiresHandlers]
  | cons h rest ih =>
      intro w member
      rw [wiresHandlers, List.mem_cons] at member
      rw [List.length_cons]
      obtain rfl | later := member
      · exact ⟨rfl, rfl, by dsimp only; omega, by dsimp only; omega⟩
      · obtain ⟨source, entry, low, high⟩ := ih (n + 1) w later
        exact ⟨source, entry, by omega, by omega⟩

/-- It runs between numbers after `n`. -/
def Wire.Within (n size : Nat) (w : Wire) : Prop :=
  n < w.source ∧ w.source ≤ n + size ∧ n < w.target ∧ w.target ≤ n + size

namespace Step

section
variable {w : Wire} {steps : List Step} {parts : List (Entry × List Step)}

theorem wiresAll_within_of (each : ∀ s ∈ steps, ∀ n, ∀ w ∈ s.wires n, w.Within n s.size)
    {entry : Entry} {k n : Nat} (before : k ≤ n) (member : w ∈ wiresAll entry (some k) n steps) :
    (w.source = k ∨ n < w.source) ∧ w.source ≤ n + sizeAll steps ∧ n < w.target ∧
      w.target ≤ n + sizeAll steps := by
  induction steps generalizing entry k n with
  | nil =>
      rw [wiresAll] at member
      cases member
  | cons s rest ih =>
      obtain ⟨here, others⟩ := List.forall_mem_cons.mp each
      have exits := exit_bounds n s
      rw [wiresAll, List.append_assoc, List.mem_append, List.mem_append] at member
      rw [sizeAll]
      obtain first | inside | later := member
      · obtain rfl := List.mem_singleton.mp first
        dsimp only
        omega
      · have := here n w inside
        rw [Wire.Within] at this
        omega
      · have := ih others exits.2 later
        omega

theorem wiresPart_within_of {p : Entry × List Step}
    (each : ∀ s ∈ p.2, ∀ n, ∀ w ∈ s.wires n, w.Within n s.size) {k n : Nat} (before : k < n)
    (member : w ∈ wiresPart k n p) :
    (w.source = k ∨ n < w.source) ∧ w.source ≤ n + sizeAll p.2 ∧
      (w.target = k + 1 ∨ n < w.target) ∧ w.target ≤ n + sizeAll p.2 := by
  unfold wiresPart at member
  split at member
  · obtain rfl := List.mem_singleton.mp member
    dsimp only
    omega
  · next full =>
      rw [List.mem_append, List.mem_singleton] at member
      obtain inside | rfl := member
      · have := wiresAll_within_of each before.le inside
        omega
      · have exits := lastExit_bounds k n before.le p.2
        have later := exits.2.2 (fun none => full (List.isEmpty_iff.mpr none))
        dsimp only
        omega

theorem wiresParts_within_of
    (each : ∀ p ∈ parts, ∀ s ∈ p.2, ∀ n, ∀ w ∈ s.wires n, w.Within n s.size) {k n : Nat}
    (before : k < n) (member : w ∈ wiresParts k n parts) :
    (w.source = k ∨ n < w.source) ∧ w.source ≤ n + sizeParts parts ∧
      (w.target = k + 1 ∨ n < w.target) ∧ w.target ≤ n + sizeParts parts := by
  induction parts generalizing n with
  | nil =>
      rw [wiresParts] at member
      cases member
  | cons p rest ih =>
      obtain ⟨here, others⟩ := List.forall_mem_cons.mp each
      rw [wiresParts, List.mem_append] at member
      rw [sizeParts]
      obtain branch | later := member
      · have := wiresPart_within_of here before branch
        omega
      · have := ih others (n := n + sizeAll p.2) (by omega) later
        omega

end

theorem wires_within (s : Step) (n : Nat) : ∀ w ∈ s.wires n, w.Within n s.size := by
  induction s using shape_induction generalizing n with
  | chain s plain each =>
      intro w member
      rw [wires_chain n plain, List.mem_append, List.mem_append, Option.mem_toList] at member
      rw [Wire.Within, size_chain plain]
      obtain (inside | back) | aside := member
      · have := wiresAll_within_of each le_rfl inside
        omega
      · obtain ⟨_, _, rfl⟩ := loopWire?_eq_some back
        have := lastExit_bounds (n + 1) (n + 1) le_rfl s.chain
        dsimp only
        omega
      · have := wiresHandlers_within (n + 1) (n + 1 + sizeAll s.chain) s.handlers w aside
        omega
  | branches s branching each =>
      intro w member
      rw [wires_branching n branching, List.mem_append] at member
      rw [Wire.Within, size_branching branching]
      obtain inside | direct := member
      · have := wiresParts_within_of each (Nat.lt_succ_self (n + 1)) inside
        omega
      · obtain rfl := mem_of_mem_ite direct
        dsimp only
        omega

section
variable {w : Wire}

theorem wiresAll_within (entry : Entry) (k n : Nat) (before : k ≤ n) (steps : List Step)
    (member : w ∈ wiresAll entry (some k) n steps) :
    (w.source = k ∨ n < w.source) ∧ w.source ≤ n + sizeAll steps ∧ n < w.target ∧
      w.target ≤ n + sizeAll steps :=
  wiresAll_within_of (fun s _ => s.wires_within) before member

theorem wiresParts_within (k n : Nat) (before : k < n) (parts : List (Entry × List Step))
    (member : w ∈ wiresParts k n parts) :
    (w.source = k ∨ n < w.source) ∧ w.source ≤ n + sizeParts parts ∧
      (w.target = k + 1 ∨ n < w.target) ∧ w.target ≤ n + sizeParts parts :=
  wiresParts_within_of (fun _ _ s _ => s.wires_within) before member

theorem wiresPart_within (k n : Nat) (before : k < n) (p : Entry × List Step)
    (member : w ∈ wiresPart k n p) :
    (w.source = k ∨ n < w.source) ∧ w.source ≤ n + sizeAll p.2 ∧
      (w.target = k + 1 ∨ n < w.target) ∧ w.target ≤ n + sizeAll p.2 :=
  wiresPart_within_of (fun s _ => s.wires_within) before member

theorem wiresAll_none (entry : Entry) (n : Nat) (s : Step) (rest : List Step) :
    wiresAll entry none n (s :: rest) =
      s.wires n ++ wiresAll .plain (some (s.exit n)) (n + s.size) rest := by
  rw [wiresAll]
  rfl

/-- The wires of a chain that nothing comes before. -/
theorem wiresAll_none_within {entry : Entry} {n : Nat} {steps : List Step}
    (member : w ∈ wiresAll entry none n steps) : w.Within n (sizeAll steps) := by
  cases steps with
  | nil => cases member
  | cons s rest =>
      rw [wiresAll_none, List.mem_append] at member
      rw [Wire.Within, sizeAll]
      obtain inside | later := member
      · have := s.wires_within n w inside
        rw [Wire.Within] at this
        omega
      · have exits := exit_bounds n s
        have := wiresAll_within .plain (s.exit n) (n + s.size) exits.2 rest later
        omega

end

end Step

end ExportDiff.Flow
