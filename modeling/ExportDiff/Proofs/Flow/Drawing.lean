/- What is drawn for the steps of a process: the nodes and links that are told from the steps, no others. -/
import ExportDiff.Proofs.Flow.Wiring

namespace ExportDiff.Flow
open Draft Xml

/-- A node but for its place. -/
def Node.label (n : Node) : String × NodeSpec := (n.id, n.spec)

def nodeLabel (x : Nat × NodeSpec) : String × NodeSpec := (nodeId x.1, x.2)

/-- Links with these ends, which take the numbers after `n`. -/
def linksAfter (n : Nat) : List Ends → List Link
  | [] => []
  | (source, target, kind, label) :: rest =>
      ⟨linkId (n + 1), source, target, kind, label⟩ :: linksAfter (n + 1) rest

theorem linksAfter_append (n : Nat) (xs ys : List Ends) :
    linksAfter n (xs ++ ys) = linksAfter n xs ++ linksAfter (n + xs.length) ys := by
  induction xs generalizing n with
  | nil => rfl
  | cons e rest ih =>
      rw [List.cons_append, linksAfter, linksAfter, ih, List.length_cons, Nat.add_assoc, Nat.add_comm 1,
        List.cons_append]

theorem map_ends_linksAfter (n : Nat) (xs : List Ends) : (linksAfter n xs).map Link.ends = xs := by
  induction xs generalizing n with
  | nil => rfl
  | cons e rest ih =>
      rw [linksAfter, List.map_cons, ih]
      rfl

theorem map_id_linksAfter (n : Nat) (xs : List Ends) :
    linkIds n ++ (linksAfter n xs).map (·.id) = linkIds (n + xs.length) := by
  induction xs generalizing n with
  | nil => exact List.append_nil _
  | cons e rest ih =>
      rw [linksAfter, List.map_cons, List.length_cons, Nat.add_comm rest.length, ← Nat.add_assoc, ← ih,
        linkIds_succ, List.append_assoc]
      rfl

/-- Some ids were taken, and these nodes and links were added. -/
structure Adds (nodes : List (Nat × NodeSpec)) (ends : List Ends) (size : Nat) (d d' : Draft) : Prop where
  nodeCount : d'.nodeCount = d.nodeCount + size
  nodes : d'.nodes.map Node.label = d.nodes.map Node.label ++ nodes.map nodeLabel
  linkCount : d'.linkCount = d.linkCount + ends.length
  links : d'.links = d.links ++ linksAfter d.linkCount ends

section
variable {d d' d'' : Draft} {xs ys : List (Nat × NodeSpec)} {es fs : List Ends} {m n : Nat}

theorem Adds.refl (d : Draft) : Adds [] [] 0 d d :=
  ⟨rfl, (List.append_nil _).symm, rfl, (List.append_nil _).symm⟩

theorem Adds.trans (h : Adds xs es m d d') (h' : Adds ys fs n d' d'') :
    Adds (xs ++ ys) (es ++ fs) (m + n) d d'' := by
  refine ⟨?_, ?_, ?_, ?_⟩
  · rw [h'.nodeCount, h.nodeCount, Nat.add_assoc]
  · rw [h'.nodes, h.nodes, List.map_append, List.append_assoc]
  · rw [h'.linkCount, h.linkCount, List.length_append, Nat.add_assoc]
  · rw [h'.links, h.links, h.linkCount, linksAfter_append, List.append_assoc]

theorem Adds.of_setRow {row : Coord} (h : Adds xs es m (d.setRow row) d') : Adds xs es m d d' :=
  ⟨h.nodeCount, h.nodes, h.linkCount, h.links⟩

theorem Adds.link (h : Adds xs es m d d') (source target : String) (kind : LinkKind)
    (label : Option String) :
    Adds xs (es ++ [(source, target, kind, label)]) m d (d'.link source target kind label) := by
  have one : Adds [] [(source, target, kind, label)] 0 d' (d'.link source target kind label) :=
    ⟨rfl, (List.append_nil _).symm, rfl, rfl⟩
  have all := h.trans one
  rwa [List.append_nil] at all

theorem Adds.placeAs (h : Adds xs es m d d') {id : String} {k : Nat} (named : id = nodeId k)
    (row : Coord) (spec : NodeSpec) (offset rows : Coord) :
    Adds (xs ++ [(k, spec)]) es m d ((d'.setRow row).placeAs id spec offset rows) := by
  subst named
  have one : Adds [(k, spec)] [] 0 d' ((d'.setRow row).placeAs (nodeId k) spec offset rows) :=
    ⟨rfl, List.map_append, rfl, (List.append_nil _).symm⟩
  have all := h.trans one
  rwa [List.append_nil] at all

theorem Adds.newNodeId (d : Draft) : Adds [] [] 1 d d.newNodeId.2 :=
  ⟨rfl, (List.append_nil _).symm, rfl, (List.append_nil _).symm⟩

theorem Adds.place (d : Draft) (spec : NodeSpec) (offset rows : Coord) :
    Adds [(d.nodeCount + 1, spec)] [] 1 d (d.place spec offset rows).2 :=
  (Adds.newNodeId d).placeAs rfl d.row spec offset rows

theorem drawHandlers_adds (k : Nat) (offset : Coord) (handlers : List Handler) (d : Draft) :
    Adds (placedHandlers d.nodeCount handlers) ((wiresHandlers k d.nodeCount handlers).map Wire.ends)
      handlers.length d (drawHandlers (nodeId k) offset handlers d) := by
  induction handlers generalizing d with
  | nil => exact .refl d
  | cons h rest ih =>
      have one := (Adds.place d h.spec (offset.add .exact handlerOffset) halfRow).link (nodeId k)
        d.newNodeId.1 .error (some "error")
      have others := ih ((d.place h.spec (offset.add .exact handlerOffset) halfRow).2.link (nodeId k)
        d.newNodeId.1 .error (some "error"))
      rw [List.length_cons, Nat.add_comm]
      exact one.trans others

end

/-- The link into the node of a step, from what is before it. -/
def endsFrom (parent : Option String) (target : Nat) (entry : Entry) : List Ends :=
  parent.toList.map fun p => (p, nodeId target, entry.kind, entry.label)

theorem drawHead_adds (h : StepHead) (offset : Coord) (entry : Entry) (parent : Option String)
    (d : Draft) : Adds [(d.nodeCount + 1, h.spec)] (endsFrom parent (d.nodeCount + 1) entry) 1 d
      (drawHead h offset entry parent d).2 := by
  have placed := Adds.place d h.spec offset oneRow
  cases parent with
  | none => exact placed
  | some p => exact placed.link p d.newNodeId.1 entry.kind entry.label

theorem drawHead_id (h : StepHead) (offset : Coord) (entry : Entry) (parent : Option String)
    (d : Draft) : (drawHead h offset entry parent d).1 = nodeId (d.nodeCount + 1) := by
  cases parent with
  | none => rfl
  | some p => rfl

/-- The links of a chain after `n` ids, with the one into it. -/
def chainEnds (entry : Entry) (parent : Option String) (n : Nat) : List Step → List Ends
  | [] => []
  | s :: rest => endsFrom parent (n + 1) entry ++
      (s.wires n ++ Step.wiresAll .plain (some (s.exit n)) (n + s.size) rest).map Wire.ends

theorem chainEnds_map (entry : Entry) (p : Option Nat) (n : Nat) (steps : List Step) :
    chainEnds entry (p.map nodeId) n steps = (Step.wiresAll entry p n steps).map Wire.ends := by
  cases steps with
  | nil => rfl
  | cons s rest =>
      have into : endsFrom (p.map nodeId) (n + 1) entry = (wiresFrom p (n + 1) entry).map Wire.ends := by
        cases p with
        | none => rfl
        | some k => rfl
      rw [chainEnds, Step.wiresAll, into, List.append_assoc, ← List.map_append]

/-- Where the next step is linked from, after a chain. -/
def chainExit (parent : Option String) (n : Nat) : List Step → Option String
  | [] => parent
  | s :: rest => some (nodeId (Step.lastExit (s.exit n) (n + s.size) rest))

theorem chainExit_some (k n : Nat) (steps : List Step) :
    chainExit (some (nodeId k)) n steps = some (nodeId (Step.lastExit k n steps)) := by
  cases steps <;> rfl

/-- A loop is linked from where its chain ends, if that is not the loop itself. -/
theorem linkLoop_adds (k : Nat) (s : Step) (d : Draft) : Adds [] ((loopWire? (k, s)).toList.map Wire.ends) 0 d
    (linkLoop s (nodeId k) (nodeId (Step.lastExit k k s.chain)) d) := by
  rw [loopWire?_eq, linkLoop]
  by_cases loops : s.isLoop ∧ s.chain ≠ []
  · rw [if_pos loops, if_pos ((isLoop_and_lastExit_ne_iff k s).mpr loops)]
    exact (Adds.refl d).link _ _ .conditional (some "loop")
  · rw [if_neg loops, if_neg (loops ∘ (isLoop_and_lastExit_ne_iff k s).mp)]
    exact .refl d

/-- Drawn from whatever row and whatever is before it, a step adds what is told from it, and is left
from its exit. -/
def Step.IsDrawn (s : Step) : Prop := ∀ offset entry parent d,
  let drawn := drawStep offset entry parent d s
  Adds (s.placed d.nodeCount) (endsFrom parent (d.nodeCount + 1) entry ++ (s.wires d.nodeCount).map Wire.ends)
    s.size d drawn.2 ∧ drawn.1 = nodeId (s.exit d.nodeCount)

section
variable {steps : List Step} {parts : List (Entry × List Step)}

theorem drawChain_adds_of (each : ∀ s ∈ steps, s.IsDrawn) (offset : Coord) (entry : Entry)
    (parent : Option String) (d : Draft) :
    let drawn := drawChain offset entry parent d steps
    Adds (Step.placedAll d.nodeCount steps) (chainEnds entry parent d.nodeCount steps)
        (Step.sizeAll steps) d drawn.2 ∧
      drawn.1 = chainExit parent d.nodeCount steps := by
  induction steps generalizing entry parent d with
  | nil =>
      rw [drawChain]
      exact ⟨.refl d, rfl⟩
  | cons s rest ih =>
      obtain ⟨here, others⟩ := List.forall_mem_cons.mp each
      obtain ⟨first, exit⟩ := here offset entry parent d
      obtain ⟨chain, last⟩ := ih others .plain (some (drawStep offset entry parent d s).1)
        (drawStep offset entry parent d s).2
      have inside := chainEnds_map .plain (some (s.exit d.nodeCount)) (d.nodeCount + s.size) rest
      rw [Option.map_some, ← exit, ← first.nodeCount] at inside
      rw [inside] at chain
      have all := first.trans chain
      rw [first.nodeCount, List.append_assoc, ← List.map_append] at all
      rw [exit, first.nodeCount, chainExit_some, ← exit] at last
      rw [drawChain]
      exact ⟨all, last⟩

theorem drawPart_adds_of {p : Entry × List Step} (each : ∀ s ∈ p.2, s.IsDrawn) (offset : Coord) (k : Nat)
    (d : Draft) : Adds (Step.placedAll d.nodeCount p.2) ((Step.wiresPart k d.nodeCount p).map Wire.ends)
      (Step.sizeAll p.2) d (drawPart offset (nodeId k) (nodeId (k + 1)) d p) := by
  unfold drawPart Step.wiresPart
  split
  · next none =>
      rw [List.isEmpty_iff.mp none]
      exact (Adds.refl d).link _ _ p.1.kind p.1.label
  · obtain ⟨chain, last⟩ := drawChain_adds_of each offset p.1 (some (nodeId k)) d
    have inside := chainEnds_map p.1 (some k) d.nodeCount p.2
    rw [Option.map_some] at inside
    dsimp only
    rw [last, chainExit_some, Option.getD_some, List.map_append, ← inside]
    exact chain.link _ _ .plain none

theorem drawParts_adds_of (each : ∀ p ∈ parts, ∀ s ∈ p.2, s.IsDrawn) (offset : Coord) (n i : Nat)
    (top bottom : Coord) (k : Nat) (d : Draft) :
    Adds (Step.placedParts d.nodeCount parts) ((Step.wiresParts k d.nodeCount parts).map Wire.ends)
      (Step.sizeParts parts) d
      (drawParts offset (nodeId k) (nodeId (k + 1)) n i top bottom d parts).2 := by
  induction parts generalizing i bottom d with
  | nil =>
      rw [drawParts]
      exact .refl d
  | cons p rest ih =>
      obtain ⟨here, others⟩ := List.forall_mem_cons.mp each
      have branch := (drawPart_adds_of here (branchOffset offset n i) k (d.setRow top)).of_setRow
      have later := ih others (i + 1)
        (bottom.max (drawPart (branchOffset offset n i) (nodeId k) (nodeId (k + 1)) (d.setRow top) p).row)
        (drawPart (branchOffset offset n i) (nodeId k) (nodeId (k + 1)) (d.setRow top) p)
      rw [branch.nodeCount] at later
      rw [drawParts, Step.wiresParts, List.map_append]
      exact branch.trans later

end

theorem drawBelow_adds {s : Step} (each : ∀ t ∈ s.chain, t.IsDrawn) (offset : Coord) {d : Draft} {k : Nat}
    (count : d.nodeCount = k) :
    let drawn := drawBelow s offset (nodeId k) d
    Adds (Step.placedAll k s.chain ++ placedHandlers (k + Step.sizeAll s.chain) s.handlers)
        ((Step.wiresAll .plain (some k) k s.chain ++ (loopWire? (k, s)).toList ++
          wiresHandlers k (k + Step.sizeAll s.chain) s.handlers).map Wire.ends)
        (Step.sizeAll s.chain + s.handlers.length) d drawn.2 ∧
      drawn.1 = nodeId (if s.isLoop then k else Step.lastExit k k s.chain) := by
  subst count
  obtain ⟨chain, last⟩ := drawChain_adds_of each offset .plain (some (nodeId d.nodeCount)) d
  have inside := chainEnds_map .plain (some d.nodeCount) d.nodeCount s.chain
  rw [Option.map_some] at inside
  rw [inside] at chain
  unfold drawBelow
  dsimp only
  rw [last, chainExit_some, Option.getD_some]
  generalize (drawChain offset .plain (some (nodeId d.nodeCount)) d s.chain).2 = d' at chain
  have looped := chain.trans (linkLoop_adds d.nodeCount s d')
  rw [List.append_nil] at looped
  have all := looped.trans (drawHandlers_adds d.nodeCount offset s.handlers _)
  rw [looped.nodeCount] at all
  rw [List.map_append, List.map_append]
  exact ⟨all, (apply_ite nodeId _ _ _).symm⟩

/-- Branches are drawn while the id of the node that closes them is taken and not placed. -/
theorem drawForks_adds {s : Step} (each : ∀ p ∈ s.parts, ∀ t ∈ p.2, t.IsDrawn) (offset : Coord) {d : Draft}
    {k : Nat} (count : d.nodeCount = k) :
    let drawn := drawForks s offset (nodeId k) d
    Adds (Step.placedParts (k + 1) s.parts ++ [(k + 1, s.closing)])
        ((Step.wiresParts k (k + 1) s.parts ++
          if s.parts.isEmpty then [⟨k, k + 1, .plain⟩] else [] : List Wire).map Wire.ends)
        (1 + Step.sizeParts s.parts) d drawn.2 ∧
      drawn.1 = nodeId (k + 1) := by
  subst count
  have below := drawParts_adds_of each offset s.parts.length 0 d.row d.row d.nodeCount d.newNodeId.2
  have drawn := (Adds.newNodeId d).trans below
  unfold drawForks closeBranches
  refine ⟨?_, rfl⟩
  rw [List.map_append]
  dsimp only
  split
  · have linked := drawn.link (nodeId d.nodeCount) d.newNodeId.1 .plain none
    exact linked.placeAs rfl _ s.closing offset oneRow
  · rw [List.map_nil, List.append_nil]
    exact drawn.placeAs rfl _ s.closing offset oneRow

/-- Every step is drawn as it is told. -/
theorem Step.isDrawn (s : Step) : s.IsDrawn := by
  induction s using shape_induction with
  | chain s plain each =>
      intro offset entry parent d
      have head := drawHead_adds s.head offset entry parent d
      obtain ⟨below, exit⟩ := drawBelow_adds each offset head.nodeCount
      rw [drawStep_chain offset entry parent d plain, drawHead_id, placed_chain _ plain,
        wires_chain _ plain, size_chain plain, exit_chain _ plain]
      exact ⟨head.trans below, exit⟩
  | branches s branching each =>
      intro offset entry parent d
      have head := drawHead_adds s.head offset entry parent d
      obtain ⟨below, exit⟩ := drawForks_adds each offset head.nodeCount
      have size : s.size = 1 + (1 + sizeParts s.parts) := by
        rw [size_branching branching]
        omega
      rw [drawStep_branching offset entry parent d branching, drawHead_id, placed_branching _ branching,
        wires_branching _ branching, size, exit_branching _ branching]
      exact ⟨head.trans below, exit⟩

/-- A chain of steps is left from its exit, wherever it is drawn. -/
theorem drawChain_exit (offset : Coord) (entry : Entry) (parent : Option String) (d : Draft)
    (steps : List Step) :
    (drawChain offset entry parent d steps).1 = chainExit parent d.nodeCount steps :=
  (drawChain_adds_of (fun s _ => s.isDrawn) offset entry parent d).2

end ExportDiff.Flow
