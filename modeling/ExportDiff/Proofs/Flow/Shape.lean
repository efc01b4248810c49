/- The two shapes of a step: a chain below its own node, or branches that a further node closes. -/
import ExportDiff.Flow.ProcessLayout
import ExportDiff.Proofs.Flow.Step

namespace ExportDiff.Flow
open Draft

namespace Step

def isBranching : Step → Bool
  | .parallel _ _ | .conditional _ _ => true
  | _ => false

/-- The chain below a step that has no branches. -/
def chain : Step → List Step
  | .sequence _ body | .loop _ body | .scope _ body _ => body
  | _ => []

def handlers : Step → List Handler
  | .scope _ _ handlers => handlers
  | _ => []

/-- The branches of a step, each with how its first step is linked. Those of a parallel step are its steps. -/
def parts : Step → List (Entry × List Step)
  | .parallel _ branches => branches.map fun s => (.plain, [s])
  | .conditional _ branches => branches.map fun b => (⟨.conditional, some b.1⟩, b.2)
  | _ => []

/-- The node that closes the branches of a step. -/
def closing : Step → NodeSpec
  | .parallel _ _ => joinSpec
  | s => mergeSpec s.head.activity

/-- What passes from the steps below a step to the step, in either shape, holds for all steps. -/
theorem shape_induction {P : Step → Prop}
    (chain : ∀ s, s.isBranching = false → (∀ t ∈ s.chain, P t) → P s)
    (branches : ∀ s, s.isBranching → (∀ p ∈ s.parts, ∀ t ∈ p.2, P t) → P s) (s : Step) : P s := by
  refine @Step.rec P (fun steps => ∀ t ∈ steps, P t) (fun bodies => ∀ b ∈ bodies, ∀ t ∈ b.2, P t)
    (fun b => ∀ t ∈ b.2, P t) ?plain ?sequence ?parallel ?conditional ?loop ?scope ?nil ?cons ?none ?more
    ?branch s
  case plain => exact fun h => chain (.plain h) rfl (by simp [Step.chain])
  case sequence => exact fun h body each => chain (.sequence h body) rfl each
  case loop => exact fun h body each => chain (.loop h body) rfl each
  case scope => exact fun h body handlers each => chain (.scope h body handlers) rfl each
  case parallel =>
    intro h steps each
    refine branches (.parallel h steps) rfl fun p member t inside => ?_
    obtain ⟨s, step, rfl⟩ := List.mem_map.mp member
    exact List.mem_singleton.mp inside ▸ each s step
  case conditional =>
    intro h bodies each
    refine branches (.conditional h bodies) rfl fun p member t inside => ?_
    obtain ⟨b, branch, rfl⟩ := List.mem_map.mp member
    exact each b branch t inside
  case nil => simp
  case cons => exact fun s rest here later => List.forall_mem_cons.mpr ⟨here, later⟩
  case none => simp
  case more => exact fun b rest here later => List.forall_mem_cons.mpr ⟨here, later⟩
  case branch => exact fun label body each => each

end Step

/-- Draws a branch of either kind and links it to the closing node. -/
def drawPart (offset : Coord) (id close : String) (d : Draft) (p : Entry × List Step) : Draft :=
  if p.2.isEmpty then d.link id close p.1.kind p.1.label
  else
    let (last, d) := drawChain offset p.1 (some id) d p.2
    d.link (last.getD id) close .plain none

/-- Draws the branches from branch `i` on, each from row `top`, as those of a parallel step and those of
a conditional are drawn. -/
def drawParts (offset : Coord) (id close : String) (n i : Nat) (top bottom : Coord) (d : Draft) :
    List (Entry × List Step) → Coord × Draft
  | [] => (bottom, d)
  | p :: rest =>
      let d := drawPart (branchOffset offset n i) id close (d.setRow top) p
      drawParts offset id close n (i + 1) top (bottom.max d.row) d rest

section
variable (offset : Coord) (id close : String) (n i : Nat) (top bottom : Coord) (d : Draft)

theorem drawParallel_eq (branches : List Step) :
    drawParallel offset id close n i top bottom d branches =
      drawParts offset id close n i top bottom d (branches.map fun s => (.plain, [s])) := by
  induction branches generalizing i bottom d with
  | nil => rw [drawParallel, List.map_nil, drawParts]
  | cons s rest ih =>
      simp only [drawParallel, List.map_cons, drawParts, drawPart, ih, drawChain]
      rfl

theorem drawBranches_eq (branches : List (String × List Step)) :
    drawBranches offset id close n i top bottom d branches =
      drawParts offset id close n i top bottom d
        (branches.map fun b => (⟨.conditional, some b.1⟩, b.2)) := by
  induction branches generalizing i bottom d with
  | nil => rw [drawBranches, List.map_nil, drawParts]
  | cons b rest ih =>
      simp only [drawBranches, List.map_cons, drawParts, drawPart, ih]

end

/-- A loop that holds a step is linked from where its chain ends. -/
def linkLoop (s : Step) (id last : String) (d : Draft) : Draft :=
  if s.isLoop ∧ last ≠ id then d.link last id .conditional (some "loop") else d

/-- What is drawn below the node `id` of a step that has no branches. -/
def drawBelow (s : Step) (offset : Coord) (id : String) (d : Draft) : String × Draft :=
  let (last, d) := drawChain offset .plain (some id) d s.chain
  (if s.isLoop then id else last.getD id,
    drawHandlers id offset s.handlers (linkLoop s id (last.getD id) d))

/-- The node of a step is linked to the closing one when there are no branches, and that is placed. -/
def closeBranches (s : Step) (offset : Coord) (id close : String) (bottom : Coord) (d : Draft) : Draft :=
  let d := if s.parts.isEmpty then d.link id close .plain none else d
  (d.setRow bottom).placeAs close s.closing offset oneRow

/-- What is drawn below the node `id` of a step that has branches. -/
def drawForks (s : Step) (offset : Coord) (id : String) (d : Draft) : String × Draft :=
  let (close, d) := d.newNodeId
  let (bottom, d) := drawParts offset id close s.parts.length 0 d.row d.row d s.parts
  (close, closeBranches s offset id close bottom d)

section
variable (offset : Coord) (entry : Entry) (parent : Option String) (d : Draft) {s : Step}

theorem drawStep_chain (plain : s.isBranching = false) : drawStep offset entry parent d s =
    drawBelow s offset (drawHead s.head offset entry parent d).1 (drawHead s.head offset entry parent d).2 := by
  cases s with
  | plain h =>
      simp only [drawStep, drawBelow, Step.chain, drawChain]
      rfl
  | loop h body =>
      rw [drawStep]
      simp [drawBelow, linkLoop, Step.isLoop, Step.chain, Step.head, Step.handlers, drawHandlers]
  | sequence h body | scope h body handlers =>
      rw [drawStep]
      rfl
  | parallel | conditional => cases plain

theorem drawStep_branching (branching : s.isBranching) : drawStep offset entry parent d s =
    drawForks s offset (drawHead s.head offset entry parent d).1 (drawHead s.head offset entry parent d).2 := by
  cases s with
  | parallel h branches =>
      rw [drawStep]
      simp only [drawForks, drawParallel_eq, closeBranches, Step.parts, List.length_map, List.isEmpty_map]
      rfl
  | conditional h branches =>
      rw [drawStep]
      simp only [drawForks, drawBranches_eq, closeBranches, Step.parts, List.length_map, List.isEmpty_map]
      rfl
  | _ => cases branching

end

end ExportDiff.Flow
