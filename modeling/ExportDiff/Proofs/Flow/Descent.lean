/- The layout follows the links: each one leads down the rows, but for those that lead back to a loop. -/
import ExportDiff.Proofs.Flow.LoopBack
import ExportDiff.Proofs.Flow.Rows
import ExportDiff.Proofs.Flow.WellFormed

namespace ExportDiff.Flow
open Draft Xml

theorem oneRow_pos : 0 < oneRow.value := by decide

theorem halfRow_pos : 0 < halfRow.value := by decide +kernel

theorem processGrid_exact : processGrid.Exact := ⟨rfl, by decide⟩

theorem projectGrid_exact : projectGrid.Exact := ⟨rfl, by decide⟩

theorem drawHandlers_lays {d : Draft} {anchor : String} (offset : Coord) (handlers : List Handler)
    (exact : d.grid.Exact) (above : d.AboveRow anchor d.row.value) :
    Lays [] none (drawHandlers anchor offset handlers d).row.value d
        (drawHandlers anchor offset handlers d) ∧
      d.row.value ≤ (drawHandlers anchor offset handlers d).row.value := by
  induction handlers generalizing d with
  | nil => exact ⟨.refl none _ d, le_rfl⟩
  | cons h rest ih =>
      obtain ⟨placed, _, next⟩ := place_linkFrom_lays exact (some anchor) h.spec
        (offset.add .exact handlerOffset) halfRow_pos .error (some "error")
      have one := placed.lays (aboveFrom_some.mpr above)
      obtain ⟨others, lower⟩ := ih (one.exact exact) ((above.mono one.kept).lower next.le)
      exact ⟨one.trans others lower, next.le.trans lower⟩

theorem drawHead_lays {d : Draft} (h : StepHead) (offset : Coord) (entry : Entry)
    (parent : Option String) (exact : d.grid.Exact) :
    let drawn := drawHead h offset entry parent d
    LaysFrom parent [] d drawn.2 ∧ drawn.2.At drawn.1 d.row.value ∧ d.row.value < drawn.2.row.value := by
  have placed := place_linkFrom_lays exact parent h.spec offset oneRow_pos entry.kind entry.label
  cases parent with
  | none => exact placed
  | some p => exact placed

/-- A step is laid from a row on, and left from a node between that row and the one that is reached. -/
def Step.IsLaid (s : Step) : Prop := ∀ offset entry parent (d : Draft), d.grid.Exact →
  let drawn := drawStep offset entry parent d s
  LaysFrom parent (loopBacks (s.numbered d.nodeCount)) d drawn.2 ∧
    drawn.2.Between drawn.1 d.row.value drawn.2.row.value

section
variable {d : Draft} {s : Step} {steps : List Step} {parts : List (Entry × List Step)} {y : Rat} {k : Nat}

theorem drawChain_lays_of (each : ∀ s ∈ steps, s.IsLaid) (offset : Coord) (entry : Entry)
    (parent : Option String) (exact : d.grid.Exact) :
    LaysFrom parent (loopBacks (Step.numberedAll d.nodeCount steps)) d
        (drawChain offset entry parent d steps).2 ∧
      LeftBelow d parent (drawChain offset entry parent d steps) := by
  induction steps generalizing entry parent d with
  | nil =>
      rw [drawChain]
      exact ⟨⟨.refl _ d, fun _ => .refl none _ d⟩, .inl rfl⟩
  | cons s rest ih =>
      obtain ⟨here, others⟩ := List.forall_mem_cons.mp each
      obtain ⟨first, exit⟩ := here offset entry parent d exact
      obtain ⟨below, left⟩ := ih others .plain (some (drawStep offset entry parent d s).1)
        (first.fills.exact exact)
      have chain := below.lays (aboveFrom_some.mpr exit.aboveRow)
      rw [(s.isDrawn offset entry parent d).1.nodeCount] at chain
      rw [drawChain, Step.numberedAll, loopBacks, List.filterMap_append]
      exact ⟨first.trans chain left.row_le, left.after exit⟩

theorem drawPart_lays_of {p : Entry × List Step} (each : ∀ s ∈ p.2, s.IsLaid) (offset : Coord)
    (exact : d.grid.Exact) {id : String} (above : d.AboveRow id d.row.value) (close : String) :
    let drawn := drawPart offset id close d p
    Lays (loopBacks (Step.numberedAll d.nodeCount p.2)) (some close) drawn.row.value d drawn ∧
      d.row.value ≤ drawn.row.value := by
  unfold drawPart
  dsimp only
  split
  · next none =>
      rw [List.isEmpty_iff.mp none]
      exact ⟨(Lays.refl _ _ d).onward (.inr ⟨rfl, above⟩) _ _, le_rfl⟩
  · obtain ⟨chain, left⟩ := drawChain_lays_of each offset p.1 (some id) exact
    have drawn := (chain.lays (aboveFrom_some.mpr above)).meanwhile (some close)
    obtain ⟨y, here, higher⟩ := above
    have exit := left.getD here higher
    exact ⟨drawn.onward (.inr ⟨rfl, exit.aboveRow⟩) .plain none, left.row_le⟩

theorem drawParts_lays_of (each : ∀ p ∈ parts, ∀ s ∈ p.2, s.IsLaid) (offset : Coord) (n i : Nat)
    (top bottom : Coord) (exact : d.grid.Exact) (above : d.AboveRow (nodeId k) top.value) :
    let drawn := drawParts offset (nodeId k) (nodeId (k + 1)) n i top bottom d parts
    Lays (loopBacks (Step.numberedParts d.nodeCount parts)) (some (nodeId (k + 1))) drawn.1.value d drawn.2 ∧
      bottom.value ≤ drawn.1.value := by
  induction parts generalizing i bottom d with
  | nil =>
      rw [drawParts]
      exact ⟨.refl _ _ d, le_rfl⟩
  | cons p rest ih =>
      obtain ⟨here, others⟩ := List.forall_mem_cons.mp each
      obtain ⟨branch, _⟩ := drawPart_lays_of here (branchOffset offset n i) (d := d.setRow top) exact above
        (nodeId (k + 1))
      have count := (drawPart_adds_of (fun s _ => s.isDrawn) (branchOffset offset n i) k (d.setRow top)
        (p := p)).nodeCount
      have drawn := branch.of_setRow
      obtain ⟨later, lower⟩ := ih others (i + 1)
        (bottom.max (drawPart (branchOffset offset n i) (nodeId k) (nodeId (k + 1)) (d.setRow top) p).row)
        (drawn.exact exact) (above.mono drawn.kept)
      rw [Coord.value_max, max_le_iff] at lower
      rw [count] at later
      rw [drawParts, Step.numberedParts, loopBacks, List.filterMap_append]
      exact ⟨drawn.trans later lower.2, lower.1⟩

/-- A loop that holds a step is linked from below itself. -/
theorem linkLoop_lays {d' : Draft} {xs : List Ends} (here : d.At (nodeId k) y) (higher : y < d.row.value)
    (chain : Lays xs none d'.row.value d d')
    (left : LeftBelow d (some (nodeId k)) (some (nodeId (Step.lastExit k k s.chain)), d')) :
    let linked := linkLoop s (nodeId k) (nodeId (Step.lastExit k k s.chain)) d'
    Lays ((loopBack? (k, s)).toList ++ xs) none d'.row.value d linked ∧ linked.row = d'.row ∧
      linked.Between (nodeId (Step.lastExit k k s.chain)) y d'.row.value := by
  have between := left.getD here higher
  rw [loopBack?_eq, linkLoop]
  dsimp only
  by_cases loops : s.isLoop ∧ s.chain ≠ []
  · have holds := (isLoop_and_lastExit_ne_iff k s).mpr loops
    rw [if_pos loops, if_pos holds]
    refine ⟨chain.up ?_ .conditional (some "loop"), rfl, between⟩
    -- The chain is not left as it was entered, so where it is left stands below the loop.
    obtain same | ⟨exit, found, z, there, lower, _⟩ := left
    · exact (holds.2 (Option.some.inj (congrArg Prod.fst same))).elim
    · obtain rfl := Option.some.inj found
      exact ⟨y, z, here.mono chain.kept, there, higher.trans_le lower⟩
  · rw [if_neg loops, if_neg (loops ∘ (isLoop_and_lastExit_ne_iff k s).mp)]
    exact ⟨chain, rfl, between⟩

/-- What is below the node of a step is laid below it. -/
theorem drawBelow_lays (each : ∀ t ∈ s.chain, t.IsLaid) (offset : Coord) (exact : d.grid.Exact)
    (count : d.nodeCount = k) (here : d.At (nodeId k) y) (higher : y < d.row.value) :
    let drawn := drawBelow s offset (nodeId k) d
    Lays ((loopBack? (k, s)).toList ++ loopBacks (Step.numberedAll k s.chain)) none drawn.2.row.value d
        drawn.2 ∧
      drawn.2.Between drawn.1 y drawn.2.row.value ∧ d.row.value ≤ drawn.2.row.value := by
  subst count
  obtain ⟨below, left⟩ := drawChain_lays_of each offset .plain (some (nodeId d.nodeCount)) exact
  have chain := below.lays (aboveFrom_some.mpr (here.aboveRow higher))
  have last := drawChain_exit offset .plain (some (nodeId d.nodeCount)) d s.chain
  rw [chainExit_some] at last
  unfold drawBelow
  generalize drawChain offset .plain (some (nodeId d.nodeCount)) d s.chain = drawn at chain left last
  obtain ⟨exit, d'⟩ := drawn
  subst last
  obtain ⟨looped, row, between⟩ := linkLoop_lays here higher chain left
  dsimp only [Option.getD_some]
  generalize linkLoop s (nodeId d.nodeCount) (nodeId (Step.lastExit d.nodeCount d.nodeCount s.chain)) d' = linked
    at looped row between
  have down := left.row_le
  have below_node := (here.mono looped.kept).aboveRow (higher.trans_le down)
  rw [← row] at looped between down below_node
  obtain ⟨aside, lower⟩ := drawHandlers_lays offset s.handlers (looped.exact exact) below_node
  have all := looped.trans aside lower
  rw [List.append_nil] at all
  refine ⟨all, ?_, down.trans lower⟩
  split
  · exact ⟨y, here.mono all.kept, le_rfl, higher.trans_le (down.trans lower)⟩
  · exact (between.mono aside.kept).lower lower

theorem closeBranches_lays {d' : Draft} {xs : List Ends} {id close : String} {bottom : Coord} (offset : Coord)
    (exact : d.grid.Exact) (drawn : Lays xs (some close) bottom.value d d')
    (above : d'.AboveRow id bottom.value) :
    let closed := closeBranches s offset id close bottom d'
    Lays xs none closed.row.value d closed ∧ closed.At close bottom.value ∧
      bottom.value < closed.row.value := by
  have wired : Lays xs (some close) bottom.value d
      (if s.parts.isEmpty then d'.link id close .plain none else d') := by
    split
    · exact drawn.onward (.inr ⟨rfl, above⟩) .plain none
    · exact drawn
  exact wired.close exact s.closing offset oneRow_pos

/-- Branches are laid while the node that closes them is pending, and it is placed below them all. -/
theorem drawForks_lays (each : ∀ p ∈ s.parts, ∀ t ∈ p.2, t.IsLaid) (offset : Coord) (exact : d.grid.Exact)
    (count : d.nodeCount = k) (here : d.At (nodeId k) y) (higher : y < d.row.value) :
    let drawn := drawForks s offset (nodeId k) d
    Lays (loopBacks (Step.numberedParts (k + 1) s.parts)) none drawn.2.row.value d drawn.2 ∧
      drawn.2.Between drawn.1 y drawn.2.row.value ∧ d.row.value ≤ drawn.2.row.value := by
  subst count
  obtain ⟨below, lower⟩ := drawParts_lays_of each offset s.parts.length 0 d.row d.row
    (d := d.newNodeId.2) exact (here.aboveRow higher)
  have drawn := below.of_newNodeId
  have above := (here.mono drawn.kept).aboveRow (higher.trans_le lower)
  obtain ⟨closed, close, next⟩ := closeBranches_lays (s := s) offset exact drawn above
  exact ⟨closed, ⟨_, close, (higher.trans_le lower).le, next⟩, lower.trans next.le⟩

end

theorem Step.isLaid (s : Step) : s.IsLaid := by
  induction s using shape_induction with
  | chain s plain each =>
      intro offset entry parent d exact
      obtain ⟨head, here, next⟩ := drawHead_lays s.head offset entry parent exact
      have count := (drawHead_adds s.head offset entry parent d).nodeCount
      rw [drawHead_id] at here
      obtain ⟨below, between, lower⟩ := drawBelow_lays each offset (head.fills.exact exact) count here next
      rw [drawStep_chain offset entry parent d plain, drawHead_id, loopBacks_chain _ plain]
      exact ⟨head.trans below lower, between⟩
  | branches s branching each =>
      intro offset entry parent d exact
      obtain ⟨head, here, next⟩ := drawHead_lays s.head offset entry parent exact
      have count := (drawHead_adds s.head offset entry parent d).nodeCount
      rw [drawHead_id] at here
      obtain ⟨below, between, lower⟩ := drawForks_lays each offset (head.fills.exact exact) count here next
      rw [drawStep_branching offset entry parent d branching, drawHead_id, loopBacks_branching _ branching]
      exact ⟨head.trans below lower, between⟩

theorem drawCatchAlls_lays {d : Draft} {parent : Option String} (ds : Declared)
    (children : List Element) (exact : d.grid.Exact) (above : d.AboveFrom parent)
    (clear : parent = none → d.Clear) :
    Lays [] none (drawCatchAlls ds parent children d).row.value d (drawCatchAlls ds parent children d) ∧
      d.row.value ≤ (drawCatchAlls ds parent children d).row.value := by
  unfold drawCatchAlls
  induction children.filter (·.tag = "catchAll") generalizing d with
  | nil => exact ⟨.refl none _ d, le_rfl⟩
  | cons e rest ih =>
      have anchor : d.AboveFrom (parent.or (d.nodes.head?.map (·.id))) := by
        cases parent with
        | some p => exact above
        | none =>
            intro id member
            obtain ⟨node, first, rfl⟩ := Option.map_eq_some_iff.mp member
            exact (clear rfl).aboveRow (List.mem_of_head? first)
      obtain ⟨placed, _, next⟩ := place_linkFrom_lays exact (parent.or (d.nodes.head?.map (·.id)))
        (catchAllSpec ds e) handlerOffset oneRow_pos .error (some "error")
      have one := placed.lays anchor
      obtain ⟨others, lower⟩ := ih (one.exact exact)
        (fun id member => ((above id member).mono one.kept).lower next.le)
        (fun root => (clear root).fills one.toFills next.le)
      exact ⟨one.trans others lower, next.le.trans lower⟩

mutual

theorem drawElement_lays (ds : Declared) (parent : Option String) {d : Draft} (exact : d.grid.Exact) :
    (e : Element) → LaysFrom parent [] d (drawElement ds parent d e).2 ∧
      (drawElement ds parent d e).2.Between (drawElement ds parent d e).1 d.row.value
        (drawElement ds parent d e).2.row.value
  | ⟨tag, attributes, text, children⟩ => by
      obtain ⟨head, here, next⟩ := place_linkFrom_lays exact parent
        (elementSpec ds ⟨tag, attributes, text, children⟩) (.ofInt 0) oneRow_pos .plain none
      obtain ⟨below, left⟩ := drawElements_lays ds _ (head.fills.exact exact) children
      have chain := below.lays (aboveFrom_some.mpr (here.aboveRow next))
      have last := left.getD here next
      have beside := (here.mono chain.kept).aboveRow (next.trans_le left.row_le)
      obtain ⟨handlers, lower⟩ := drawCatchAlls_lays ds children (chain.exact (head.fills.exact exact))
        (aboveFrom_some.mpr beside) (fun root => by cases root)
      have aside := chain.trans handlers lower
      have from_last := (last.mono handlers.kept).lower lower
      rw [drawElement]
      dsimp only
      split
      · obtain ⟨closing, close, further⟩ := place_linkFrom_lays (aside.exact (head.fills.exact exact))
          (some _) (endSpec ds ⟨tag, attributes, text, children⟩) (.ofInt 0) oneRow_pos .plain none
        have closed := closing.lays (aboveFrom_some.mpr from_last.aboveRow)
        have down := left.row_le.trans lower
        exact ⟨head.trans (aside.trans closed further.le) (down.trans further.le), _, close,
          next.le.trans down, further⟩
      · split
        · exact ⟨head.trans aside (left.row_le.trans lower), from_last⟩
        · exact ⟨head, _, here, le_rfl, next⟩

theorem drawElements_lays (ds : Declared) (parent : Option String) {d : Draft} (exact : d.grid.Exact) :
    (elements : List Element) → LaysFrom parent [] d (drawElements ds parent d elements).2 ∧
      LeftBelow d parent (drawElements ds parent d elements)
  | [] => by
      rw [drawElements]
      exact ⟨⟨.refl _ d, fun _ => .refl none _ d⟩, .inl rfl⟩
  | e :: rest => by
      rw [drawElements]
      split
      · obtain ⟨first, exit⟩ := drawElement_lays ds parent exact e
        obtain ⟨below, left⟩ := drawElements_lays ds (some (drawElement ds parent d e).1)
          (first.fills.exact exact) rest
        have chain := below.lays (aboveFrom_some.mpr exit.aboveRow)
        exact ⟨first.trans chain left.row_le, left.after exit⟩
      · exact drawElements_lays ds parent exact rest

end

/-- The handlers of the whole stand below all of it. -/
theorem drawProcess_lays (process : Element) :
    Lays (loopBacks (Step.numberedAll 0 (stepsWithin process))) none (drawProcess process).row.value
        (.start processGrid firstRow) (drawProcess process) ∧ (drawProcess process).Clear := by
  have each : ∀ s ∈ stepsWithin process, s.IsLaid := fun s _ => s.isLaid
  obtain ⟨below, left⟩ := drawChain_lays_of each (.ofInt 0) .plain none (d := .start processGrid firstRow)
    processGrid_exact
  have chain := below.lays aboveFrom_none
  have clear : (drawSteps (stepsWithin process)).2.Clear := (clear_start _ _).fills chain.toFills left.row_le
  rw [drawProcess_eq]
  split
  · next first more nodes =>
      have member : first ∈ (drawSteps (stepsWithin process)).2.nodes := nodes ▸ List.mem_cons_self
      obtain ⟨aside, lower⟩ := drawHandlers_lays (.ofInt 0) (handlersOf process)
        (chain.exact processGrid_exact) (clear.aboveRow member)
      have all := chain.trans aside lower
      rw [List.append_nil] at all
      exact ⟨all, clear.fills aside.toFills lower⟩
  · exact ⟨chain, clear⟩

theorem drawOrchestration_lays (ds : Declared) (orchestration : Element) :
    Lays [] none (drawOrchestration ds orchestration).row.value (.start projectGrid firstRow)
        (drawOrchestration ds orchestration) ∧ (drawOrchestration ds orchestration).Clear := by
  obtain ⟨below, left⟩ := drawElements_lays ds none (d := .start projectGrid firstRow)
    projectGrid_exact ((orchestration.child? "globalTry").getD orchestration).children
  have chain := below.lays aboveFrom_none
  have clear := (clear_start projectGrid firstRow).fills chain.toFills left.row_le
  obtain ⟨aside, lower⟩ := drawCatchAlls_lays ds
    ((orchestration.child? "globalTry").getD orchestration).children (chain.exact projectGrid_exact)
    aboveFrom_none (fun _ => clear)
  exact ⟨chain.trans aside lower, clear.fills aside.toFills lower⟩

theorem WellFormed.node?_id {f : Flow} (h : f.WellFormed) {n : Node} (member : n ∈ f.nodes) :
    f.node? n.id = some n := by
  cases found : f.node? n.id with
  | none =>
      have absent := List.find?_eq_none.mp found n member
      simp at absent
  | some m =>
      have same : m.id = n.id := by simpa using List.find?_some found
      rw [List.inj_on_of_nodup_map h.distinct (List.mem_of_find?_eq_some found) member same]

/-- The node of one id stands in a higher row than that of another. -/
def Above (f : Flow) (a b : String) : Prop :=
  ∃ m n, f.node? a = some m ∧ f.node? b = some n ∧ m.y.value < n.y.value

/-- Links lead down the rows, except that these lead up. -/
def Descends (f : Flow) (backs : List Ends) : Prop :=
  ∀ l ∈ f.links, if l.ends ∈ backs then f.Above l.target l.source else f.Above l.source l.target

theorem Draft.Above.finish {d : Draft} {metadata : Metadata} {a b : String} (h : d.Above a b)
    (formed : (d.finish metadata).WellFormed) : (d.finish metadata).Above a b := by
  obtain ⟨_, _, ⟨m, first, rfl, rfl⟩, ⟨n, second, rfl, rfl⟩, higher⟩ := h
  exact ⟨m, n, formed.node?_id first, formed.node?_id second, higher⟩

theorem Draft.Lays.descends {d : Draft} {grid : Grid} {row : Coord} {backs : List Ends} {bottom : Rat}
    (lays : Lays backs none bottom (.start grid row) d) (sound : Sound [] d) (metadata : Metadata) :
    (d.finish metadata).Descends backs := by
  have formed := finish_wellFormed sound metadata
  obtain ⟨added, links, down⟩ := lays.links
  intro l member
  have new : l ∈ added := by
    change l ∈ d.links at member
    rwa [links] at member
  split
  · next back => exact (lays.rises l.ends back).finish formed
  · next onward =>
      obtain back | falls | ⟨waits, _⟩ := down l new
      · exact (onward back).elim
      · exact falls.finish formed
      · cases waits

/-- The flow of a text is drawn in one form or the other, or there is nothing in it. -/
theorem parseFlow_drawn (xml : String) :
    (∃ process, parseFlow xml = (drawProcess process).finish (processMetadata process)) ∨
    (∃ ds orchestration metadata, parseFlow xml = (drawOrchestration ds orchestration).finish metadata) ∨
    ∃ processName, parseFlow xml = .empty processName := by
  unfold parseFlow parse
  split
  · next root _ =>
      obtain project | process | none := ofRoot_flow root
      · unfold projectFlow? at project
        split at project
        · cases project
        · split at project
          · exact .inr (.inr ⟨_, (Option.some.inj project).symm⟩)
          · split at project
            · exact .inr (.inr ⟨_, (Option.some.inj project).symm⟩)
            · exact .inr (.inl ⟨_, _, _, (Option.some.inj project).symm⟩)
      · obtain ⟨found, _, drawn⟩ := Option.map_eq_some_iff.mp process
        exact .inl ⟨found, drawn.symm⟩
      · exact .inr (.inr ⟨_, none⟩)
  · exact .inr (.inr ⟨_, rfl⟩)

/-- The layout follows the links: in a process each one leads down, but for those by which a loop is
linked from the end of its body, which lead up, and in an orchestration each one leads down. The row
that is reached lies below all that was placed, after each step and each element as at the end. -/
theorem layout_descends :
    (∀ process metadata, ((drawProcess process).finish metadata).Descends
      (loopBacks (Step.numberedAll 0 (stepsWithin process)))) ∧
    (∀ ds orchestration metadata, ((drawOrchestration ds orchestration).finish metadata).Descends []) ∧
    (∀ xml,
      (∃ process, parseFlow xml = (drawProcess process).finish (processMetadata process)) ∨
      (∃ ds orchestration metadata,
        parseFlow xml = (drawOrchestration ds orchestration).finish metadata) ∨
      ∃ processName, parseFlow xml = .empty processName) ∧
    (∀ offset entry parent (d : Draft) s, d.grid = processGrid →
      let drawn := (drawStep offset entry parent d s).2
      ∃ added, drawn.nodes = d.nodes ++ added ∧ ∀ n ∈ added, n.y.value < drawn.row.value) ∧
    (∀ ds parent (d : Draft) e, d.grid = projectGrid →
      let drawn := (drawElement ds parent d e).2
      ∃ added, drawn.nodes = d.nodes ++ added ∧ ∀ n ∈ added, n.y.value < drawn.row.value) ∧
    (∀ process, (drawProcess process).Clear) ∧
    ∀ ds orchestration, (drawOrchestration ds orchestration).Clear := by
  refine ⟨?_, ?_, parseFlow_drawn, ?_, ?_, fun p => (drawProcess_lays p).2,
    fun ds o => (drawOrchestration_lays ds o).2⟩
  · intro process metadata
    exact (drawProcess_lays process).1.descends (drawProcess_sound process) metadata
  · intro ds orchestration metadata
    exact (drawOrchestration_lays ds orchestration).1.descends (drawOrchestration_sound ds orchestration)
      metadata
  · intro offset entry parent d s grid
    exact (s.isLaid offset entry parent d (grid ▸ processGrid_exact)).1.fills.nodes
  · intro ds parent d e grid
    exact (drawElement_lays ds parent (grid ▸ projectGrid_exact) e).1.fills.nodes

/-- Branches of unequal depth, one with a loop and one with handlers. -/
def unevenProcess : Element :=
  ⟨"process", [], "", [
    ⟨"flow", [], "", [
      ⟨"while", [], "", [⟨"assign", [], "", []⟩, ⟨"invoke", [], "", []⟩]⟩,
      ⟨"scope", [], "", [⟨"reply", [], "", []⟩,
        ⟨"faultHandlers", [], "", [⟨"catch", [], "", []⟩, ⟨"catchAll", [], "", []⟩]⟩]⟩]⟩]⟩

theorem layout_descends_uneven :
    let flow := (drawProcess unevenProcess).finish (processMetadata unevenProcess)
    let back : Link := ⟨"edge_4", "node_5", "node_3", .conditional, some "loop"⟩
    (back ∈ flow.links ∧ back.ends ∈ loopBacks (Step.numberedAll 0 (stepsWithin unevenProcess)) ∧
      flow.Above back.target back.source) ∧
    (Draft.start processGrid firstRow).grid = processGrid ∧ ∀ s ∈ stepsWithin unevenProcess,
      let drawn := (drawStep (.ofInt 0) .plain none (.start processGrid firstRow) s).2
      ∃ added, drawn.nodes = [] ++ added ∧ ∀ n ∈ added, n.y.value < drawn.row.value := by
  intro flow back
  have member : back ∈ flow.links := by decide +kernel
  have loops : back.ends ∈ loopBacks (Step.numberedAll 0 (stepsWithin unevenProcess)) := by decide +kernel
  have rises := layout_descends.1 unevenProcess (processMetadata unevenProcess) back member
  rw [if_pos loops] at rises
  exact ⟨⟨member, loops, rises⟩, rfl, fun s _ => layout_descends.2.2.2.1 _ _ _ _ s rfl⟩

end ExportDiff.Flow
