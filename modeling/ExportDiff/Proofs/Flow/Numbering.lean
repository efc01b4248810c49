/- The numbers under which the steps of a process are drawn, told from the steps alone. -/
import ExportDiff.Proofs.Flow.Draft
import ExportDiff.Proofs.Flow.Shape

namespace ExportDiff.Flow
open Draft Xml

/-- The nodes of handlers, which take the numbers after `n`. -/
def placedHandlers (n : Nat) : List Handler → List (Nat × NodeSpec)
  | [] => []
  | h :: rest => (n + 1, h.spec) :: placedHandlers (n + 1) rest

namespace Step

mutual

/-- How many ids a step takes, those of joins, merges and handlers among them. -/
def size : Step → Nat
  | .plain _ => 1
  | .sequence _ body => 1 + sizeAll body
  | .parallel _ branches => 2 + sizeAll branches
  | .conditional _ branches => 2 + sizeBranches branches
  | .loop _ body => 1 + sizeAll body
  | .scope _ body handlers => 1 + sizeAll body + handlers.length

def sizeAll : List Step → Nat
  | [] => 0
  | s :: rest => s.size + sizeAll rest

def sizeBranches : List (String × List Step) → Nat
  | [] => 0
  | (_, body) :: rest => sizeAll body + sizeBranches rest

end

mutual

/-- The number of the node that the next step is linked from, when `n` ids are taken before: a loop
is left from its own node, branches from the node that closes them. -/
def exit (n : Nat) : Step → Nat
  | .plain _ => n + 1
  | .sequence _ body => lastExit (n + 1) (n + 1) body
  | .parallel _ _ => n + 2
  | .conditional _ _ => n + 2
  | .loop _ _ => n + 1
  | .scope _ body _ => lastExit (n + 1) (n + 1) body

/-- The same for a chain, which leaves `parent` as it is when there is nothing in it. -/
def lastExit (parent n : Nat) : List Step → Nat
  | [] => parent
  | s :: rest => lastExit (s.exit n) (n + s.size) rest

end

mutual

/-- A step and those within it, each with the number of its node, in the order of the nodes. -/
def numbered (n : Nat) : Step → List (Nat × Step)
  | .plain h => [(n + 1, .plain h)]
  | .sequence h body => (n + 1, .sequence h body) :: numberedAll (n + 1) body
  | .parallel h branches => (n + 1, .parallel h branches) :: numberedAll (n + 2) branches
  | .conditional h branches => (n + 1, .conditional h branches) :: numberedBranches (n + 2) branches
  | .loop h body => (n + 1, .loop h body) :: numberedAll (n + 1) body
  | .scope h body handlers => (n + 1, .scope h body handlers) :: numberedAll (n + 1) body

def numberedAll (n : Nat) : List Step → List (Nat × Step)
  | [] => []
  | s :: rest => s.numbered n ++ numberedAll (n + s.size) rest

def numberedBranches (n : Nat) : List (String × List Step) → List (Nat × Step)
  | [] => []
  | (_, body) :: rest => numberedAll n body ++ numberedBranches (n + sizeAll body) rest

end

mutual

/-- The nodes of a step and of those within it, each with its number, in the order in which they are
placed. The node that closes branches takes its number before them. -/
def placed (n : Nat) : Step → List (Nat × NodeSpec)
  | .plain h => [(n + 1, h.spec)]
  | .sequence h body => (n + 1, h.spec) :: placedAll (n + 1) body
  | .parallel h branches => (n + 1, h.spec) :: (placedAll (n + 2) branches ++ [(n + 2, joinSpec)])
  | .conditional h branches =>
      (n + 1, h.spec) :: (placedBranches (n + 2) branches ++ [(n + 2, mergeSpec h.activity)])
  | .loop h body => (n + 1, h.spec) :: placedAll (n + 1) body
  | .scope h body handlers =>
      (n + 1, h.spec) :: (placedAll (n + 1) body ++ placedHandlers (n + 1 + sizeAll body) handlers)

def placedAll (n : Nat) : List Step → List (Nat × NodeSpec)
  | [] => []
  | s :: rest => s.placed n ++ placedAll (n + s.size) rest

def placedBranches (n : Nat) : List (String × List Step) → List (Nat × NodeSpec)
  | [] => []
  | (_, body) :: rest => placedAll n body ++ placedBranches (n + sizeAll body) rest

end

def sizeParts : List (Entry × List Step) → Nat
  | [] => 0
  | p :: rest => sizeAll p.2 + sizeParts rest

def numberedParts (n : Nat) : List (Entry × List Step) → List (Nat × Step)
  | [] => []
  | p :: rest => numberedAll n p.2 ++ numberedParts (n + sizeAll p.2) rest

def placedParts (n : Nat) : List (Entry × List Step) → List (Nat × NodeSpec)
  | [] => []
  | p :: rest => placedAll n p.2 ++ placedParts (n + sizeAll p.2) rest

/-- A branch of one step is numbered as the step. -/
theorem parts_parallel (n : Nat) (branches : List Step) :
    let parts := branches.map fun s => (Entry.plain, [s])
    sizeParts parts = sizeAll branches ∧ numberedParts n parts = numberedAll n branches ∧
      placedParts n parts = placedAll n branches := by
  induction branches generalizing n with
  | nil => exact ⟨rfl, rfl, rfl⟩
  | cons s rest ih =>
      obtain ⟨size, numbered, placed⟩ := ih (n + s.size)
      simp only [List.map_cons, sizeParts, numberedParts, placedParts, sizeAll, numberedAll, placedAll,
        Nat.add_zero, List.append_nil, size, numbered, placed, and_self]

theorem parts_conditional (n : Nat) (branches : List (String × List Step)) :
    let parts := branches.map fun b => ((⟨.conditional, some b.1⟩ : Entry), b.2)
    sizeParts parts = sizeBranches branches ∧ numberedParts n parts = numberedBranches n branches ∧
      placedParts n parts = placedBranches n branches := by
  induction branches generalizing n with
  | nil => exact ⟨rfl, rfl, rfl⟩
  | cons b rest ih =>
      obtain ⟨label, body⟩ := b
      obtain ⟨size, numbered, placed⟩ := ih (n + sizeAll body)
      simp only [List.map_cons, sizeParts, numberedParts, placedParts, sizeBranches, numberedBranches,
        placedBranches, size, numbered, placed, and_self]

section
variable {s : Step} (n : Nat)

theorem size_chain (plain : s.isBranching = false) :
    s.size = 1 + (sizeAll s.chain + s.handlers.length) := by
  cases s with
  | parallel | conditional => cases plain
  | _ => simp [size, chain, handlers, sizeAll, Nat.add_assoc]

theorem numbered_chain (plain : s.isBranching = false) :
    s.numbered n = (n + 1, s) :: numberedAll (n + 1) s.chain := by
  cases s with
  | parallel | conditional => cases plain
  | _ => rfl

theorem placed_chain (plain : s.isBranching = false) : s.placed n = (n + 1, s.head.spec) ::
    (placedAll (n + 1) s.chain ++ placedHandlers (n + 1 + sizeAll s.chain) s.handlers) := by
  cases s with
  | parallel | conditional => cases plain
  | _ => simp [placed, chain, handlers, head, placedAll, placedHandlers]

theorem exit_chain (plain : s.isBranching = false) :
    s.exit n = if s.isLoop then n + 1 else lastExit (n + 1) (n + 1) s.chain := by
  cases s with
  | parallel | conditional => cases plain
  | _ => rfl

theorem size_branching (branching : s.isBranching) : s.size = 2 + sizeParts s.parts := by
  cases s with
  | parallel h branches => rw [size, parts, (parts_parallel 0 branches).1]
  | conditional h branches => rw [size, parts, (parts_conditional 0 branches).1]
  | _ => cases branching

theorem numbered_branching (branching : s.isBranching) :
    s.numbered n = (n + 1, s) :: numberedParts (n + 2) s.parts := by
  cases s with
  | parallel h branches => rw [numbered, parts, (parts_parallel (n + 2) branches).2.1]
  | conditional h branches => rw [numbered, parts, (parts_conditional (n + 2) branches).2.1]
  | _ => cases branching

theorem placed_branching (branching : s.isBranching) :
    s.placed n = (n + 1, s.head.spec) :: (placedParts (n + 2) s.parts ++ [(n + 2, s.closing)]) := by
  cases s with
  | parallel h branches => rw [placed, parts, (parts_parallel (n + 2) branches).2.2]; rfl
  | conditional h branches => rw [placed, parts, (parts_conditional (n + 2) branches).2.2]; rfl
  | _ => cases branching

theorem numbered_head (s : Step) : ∃ below, s.numbered n = (n + 1, s) :: below := by
  cases s <;> exact ⟨_, rfl⟩

theorem placed_head (s : Step) : ∃ below, s.placed n = (n + 1, s.head.spec) :: below := by
  cases s <;> exact ⟨_, rfl⟩

theorem exit_branching (branching : s.isBranching) : s.exit n = n + 2 := by
  cases s with
  | parallel | conditional => rw [exit]
  | _ => cases branching

theorem two_le_size (branching : s.isBranching) : 2 ≤ s.size := by
  rw [size_branching branching]
  omega

end

theorem lastExit_bounds_of {steps : List Step}
    (each : ∀ s ∈ steps, ∀ n, n < s.exit n ∧ s.exit n ≤ n + s.size) {parent n : Nat}
    (before : parent ≤ n) : parent ≤ lastExit parent n steps ∧
      lastExit parent n steps ≤ n + sizeAll steps ∧ (steps ≠ [] → n < lastExit parent n steps) := by
  induction steps generalizing parent n with
  | nil =>
      rw [lastExit, sizeAll]
      exact ⟨Nat.le_refl _, before, fun some => (some rfl).elim⟩
  | cons s rest ih =>
      obtain ⟨first, others⟩ := List.forall_mem_cons.mp each
      have exits := first n
      have chain := ih others exits.2
      rw [lastExit, sizeAll]
      omega

theorem exit_bounds (n : Nat) (s : Step) : n < s.exit n ∧ s.exit n ≤ n + s.size := by
  induction s using shape_induction generalizing n with
  | chain s plain each =>
      have inner := lastExit_bounds_of each (Nat.le_refl (n + 1))
      rw [exit_chain n plain, size_chain plain]
      split <;> omega
  | branches s branching =>
      rw [exit_branching n branching, size_branching branching]
      omega

theorem lastExit_bounds (parent n : Nat) (before : parent ≤ n) (steps : List Step) :
    parent ≤ lastExit parent n steps ∧ lastExit parent n steps ≤ n + sizeAll steps ∧
      (steps ≠ [] → n < lastExit parent n steps) :=
  lastExit_bounds_of (fun s _ n => exit_bounds n s) before

/-- A chain with a step in it is not left from where it was entered. -/
theorem nodeId_lastExit_ne (k : Nat) (s : Step) (rest : List Step) :
    nodeId (lastExit k k (s :: rest)) ≠ nodeId k := by
  have later := (lastExit_bounds k k (Nat.le_refl k) (s :: rest)).2.2 (List.cons_ne_nil s rest)
  intro same
  have := nodeId_injective same
  omega

end Step

/-- The nodes that close branches and those of handlers stand for no step. -/
def addedActivities : List String := ["flowEnd", "conditionEnd", "pickEnd", "catch", "catchAll"]

def Node.isAdded (n : Node) : Bool := addedActivities.contains n.activity

theorem Activity.name_not_added (a : Activity) : addedActivities.contains a.name = false := by
  cases a <;> decide

theorem mergeSpec_added (a : Activity) : addedActivities.contains (mergeSpec a).activity := by
  unfold mergeSpec
  split <;> decide

theorem Handler.spec_added (h : Handler) : addedActivities.contains h.spec.activity := by
  unfold Handler.spec
  cases h.catchAll with
  | true => rfl
  | false => rfl

def NodeSpec.isAdded (s : NodeSpec) : Bool := addedActivities.contains s.activity

theorem Step.closing_added (s : Step) : s.closing.isAdded := by
  cases s with
  | parallel h branches => rfl
  | _ => exact mergeSpec_added _

/-- The node of a step, under its number. -/
def stepNode (p : Nat × Step) : Nat × NodeSpec := (p.1, p.2.head.spec)

/-- Of the numbers after `n` each one is that of a node. The nodes of steps are in the order of the
steps, each of which takes a run of numbers and has all that is drawn for it among the nodes. -/
structure Outline (n size : Nat) (steps : List (Nat × Step)) (nodes : List (Nat × NodeSpec)) : Prop where
  numbers : (nodes.map (·.1)).Perm (List.range' (n + 1) size)
  shown : nodes.filter (fun x => !x.2.isAdded) = steps.map stepNode
  bounds : ∀ k t, (k, t) ∈ steps → n < k ∧ k + t.size ≤ n + size + 1
  whole : ∀ m t, (m + 1, t) ∈ steps → t.numbered m ⊆ steps ∧ t.placed m ⊆ nodes

section
variable {n a b : Nat} {xs ys : List (Nat × Step)} {vs ws : List (Nat × NodeSpec)}

theorem Outline.nil (n : Nat) : Outline n 0 [] [] := ⟨.refl _, rfl, by simp, by simp⟩

theorem Outline.mem_numbers (h : Outline n a xs vs) {k : Nat} (low : n < k) (high : k ≤ n + a) :
    k ∈ vs.map (·.1) := by
  rw [h.numbers.mem_iff, List.mem_range'_1]
  omega

theorem Outline.append (h : Outline n a xs vs) (h' : Outline (n + a) b ys ws) :
    Outline n (a + b) (xs ++ ys) (vs ++ ws) := by
  refine ⟨?_, ?_, ?_, ?_⟩
  · rw [List.map_append, ← List.range'_append_1, Nat.add_right_comm]
    exact h.numbers.append h'.numbers
  · rw [List.filter_append, h.shown, h'.shown, List.map_append]
  · intro k t member
    obtain first | later := List.mem_append.mp member
    · have := h.bounds k t first
      omega
    · have := h'.bounds k t later
      omega
  · intro m t member
    obtain first | later := List.mem_append.mp member
    · obtain ⟨steps, nodes⟩ := h.whole m t first
      exact ⟨List.subset_append_of_subset_left _ steps, List.subset_append_of_subset_left _ nodes⟩
    · obtain ⟨steps, nodes⟩ := h'.whole m t later
      exact ⟨List.subset_append_of_subset_right _ steps, List.subset_append_of_subset_right _ nodes⟩

theorem Outline.handlers (n : Nat) (handlers : List Handler) :
    Outline n handlers.length [] (placedHandlers n handlers) := by
  induction handlers generalizing n with
  | nil => exact .nil n
  | cons h rest ih =>
      have one : Outline n 1 [] [(n + 1, h.spec)] := by
        refine ⟨.refl _, ?_, by simp, by simp⟩
        have added : h.spec.isAdded := h.spec_added
        simp [added]
      rw [List.length_cons, Nat.add_comm]
      exact one.append (ih (n + 1))

/-- The node that closes branches has the number before theirs. -/
theorem Outline.close (h : Outline (n + 1) a xs vs) {spec : NodeSpec} (added : spec.isAdded) :
    Outline n (1 + a) xs (vs ++ [(n + 1, spec)]) := by
  refine ⟨?_, ?_, ?_, ?_⟩
  · rw [List.map_append, Nat.add_comm 1 a, List.range'_succ]
    exact (List.perm_append_singleton _ _).trans (h.numbers.cons _)
  · rw [List.filter_append, h.shown]
    simp [added]
  · intro k t member
    have := h.bounds k t member
    omega
  · intro m t member
    obtain ⟨steps, nodes⟩ := h.whole m t member
    exact ⟨steps, List.subset_append_of_subset_left _ nodes⟩

theorem Outline.head {s : Step} (h : Outline (n + 1) a xs vs) (size : s.size = 1 + a)
    (numbered : s.numbered n = (n + 1, s) :: xs) (placed : s.placed n = (n + 1, s.head.spec) :: vs) :
    Outline n s.size (s.numbered n) (s.placed n) := by
  have own : s.head.spec.isAdded = false := s.head.activity.name_not_added
  refine ⟨?_, ?_, ?_, ?_⟩
  · rw [placed, List.map_cons, size, Nat.add_comm 1 a, List.range'_succ]
    exact h.numbers.cons _
  · rw [placed, numbered, List.filter_cons_of_pos (by rw [own]; rfl), h.shown]
    rfl
  · intro k t member
    rw [numbered, List.mem_cons, Prod.mk.injEq] at member
    obtain ⟨rfl, rfl⟩ | inside := member
    · omega
    · have := h.bounds k t inside
      omega
  · intro m t member
    rw [numbered, List.mem_cons, Prod.mk.injEq, Nat.add_right_cancel_iff] at member
    obtain ⟨rfl, rfl⟩ | inside := member
    · exact ⟨List.Subset.refl _, List.Subset.refl _⟩
    · obtain ⟨steps, nodes⟩ := h.whole m t inside
      rw [numbered, placed]
      exact ⟨List.subset_cons_of_subset _ steps, List.subset_cons_of_subset _ nodes⟩

end

namespace Step

section
variable {steps : List Step} {parts : List (Entry × List Step)}

theorem outlineAll_of (each : ∀ s ∈ steps, ∀ n, Outline n s.size (s.numbered n) (s.placed n)) (n : Nat) :
    Outline n (sizeAll steps) (numberedAll n steps) (placedAll n steps) := by
  induction steps generalizing n with
  | nil => exact .nil n
  | cons s rest ih =>
      obtain ⟨first, others⟩ := List.forall_mem_cons.mp each
      exact (first n).append (ih others (n + s.size))

theorem outlineParts_of
    (each : ∀ p ∈ parts, ∀ s ∈ p.2, ∀ n, Outline n s.size (s.numbered n) (s.placed n)) (n : Nat) :
    Outline n (sizeParts parts) (numberedParts n parts) (placedParts n parts) := by
  induction parts generalizing n with
  | nil => exact .nil n
  | cons p rest ih =>
      obtain ⟨first, others⟩ := List.forall_mem_cons.mp each
      exact (outlineAll_of first n).append (ih others (n + sizeAll p.2))

end

theorem outline (s : Step) (n : Nat) : Outline n s.size (s.numbered n) (s.placed n) := by
  induction s using shape_induction generalizing n with
  | chain s plain each =>
      have below := (outlineAll_of each (n + 1)).append (.handlers _ s.handlers)
      rw [List.append_nil] at below
      exact below.head (size_chain plain) (numbered_chain n plain) (placed_chain n plain)
  | branches s branching each =>
      have below := (outlineParts_of each (n + 2)).close s.closing_added
      refine below.head ?_ (numbered_branching n branching) (placed_branching n branching)
      rw [size_branching branching]
      omega

theorem outlineAll (steps : List Step) (n : Nat) :
    Outline n (sizeAll steps) (numberedAll n steps) (placedAll n steps) :=
  outlineAll_of (fun s _ => s.outline) n

theorem outlineParts (parts : List (Entry × List Step)) (n : Nat) :
    Outline n (sizeParts parts) (numberedParts n parts) (placedParts n parts) :=
  outlineParts_of (fun _ _ s _ => s.outline) n

end Step

end ExportDiff.Flow
