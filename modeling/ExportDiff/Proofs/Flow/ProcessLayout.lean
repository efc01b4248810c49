/- The draft of a process: its nodes and links are told from its steps, and its ids are kept. -/
import ExportDiff.Proofs.Flow.Drawing

namespace ExportDiff.Flow
open Draft Xml

/-- The chain of all the steps, before the handlers of the process itself. -/
def drawSteps (steps : List Step) : Option String × Draft :=
  drawChain (.ofInt 0) .plain none (.start processGrid firstRow) steps

theorem drawProcess_eq (process : Element) :
    drawProcess process = match (drawSteps (stepsWithin process)).2.nodes with
      | first :: _ =>
          drawHandlers first.id (.ofInt 0) (handlersOf process) (drawSteps (stepsWithin process)).2
      | [] => (drawSteps (stepsWithin process)).2 :=
  rfl

/-- The handlers of the whole process, which are linked from its first node, if there is one. -/
def handlersBeside (process : Element) : List Handler :=
  if (stepsWithin process).isEmpty then [] else handlersOf process

def processSize (process : Element) : Nat :=
  Step.sizeAll (stepsWithin process) + (handlersBeside process).length

/-- The nodes of a process, each with its number, in order. -/
def processNodes (process : Element) : List (Nat × NodeSpec) :=
  Step.placedAll 0 (stepsWithin process) ++
    placedHandlers (Step.sizeAll (stepsWithin process)) (handlersBeside process)

def processWires (process : Element) : List Wire :=
  Step.wiresAll .plain none 0 (stepsWithin process) ++
    wiresHandlers 1 (Step.sizeAll (stepsWithin process)) (handlersBeside process)

theorem drawSteps_adds (steps : List Step) : Adds (Step.placedAll 0 steps)
    ((Step.wiresAll .plain none 0 steps).map Wire.ends) (Step.sizeAll steps) (.start processGrid firstRow)
    (drawSteps steps).2 := by
  rw [← chainEnds_map]
  exact (drawChain_adds_of (fun s _ => s.isDrawn) (.ofInt 0) .plain none (.start processGrid firstRow)).1

theorem drawSteps_first (s : Step) (rest : List Step) :
    ∃ first more, (drawSteps (s :: rest)).2.nodes = first :: more ∧ first.id = nodeId 1 := by
  have labels := (drawSteps_adds (s :: rest)).nodes
  obtain ⟨below, placed⟩ := s.placed_head 0
  rw [Step.placedAll, placed] at labels
  obtain ⟨first, more, nodes, label, _⟩ := List.map_eq_cons_iff.mp labels
  exact ⟨first, more, nodes, congrArg Prod.fst label⟩

section
variable (process : Element)

theorem drawProcess_adds : Adds (processNodes process) ((processWires process).map Wire.ends)
    (processSize process) (.start processGrid firstRow) (drawProcess process) := by
  have chain := drawSteps_adds (stepsWithin process)
  rw [drawProcess_eq, processNodes, processWires, processSize, handlersBeside, List.map_append]
  cases steps : stepsWithin process with
  | nil => exact .refl _
  | cons s rest =>
      obtain ⟨first, more, nodes, id⟩ := drawSteps_first s rest
      rw [steps] at chain
      have count := chain.nodeCount.trans (Nat.zero_add _)
      have all := chain.trans (drawHandlers_adds 1 (.ofInt 0) (handlersOf process) _)
      rw [count] at all
      rw [nodes, if_neg (by simp)]
      dsimp only
      rw [id]
      exact all

theorem labels_drawProcess :
    (drawProcess process).nodes.map Node.label = (processNodes process).map nodeLabel :=
  (drawProcess_adds process).nodes

theorem ids_drawProcess :
    (drawProcess process).ids = ((processNodes process).map (·.1)).map nodeId := by
  have ids := congrArg (List.map Prod.fst) (labels_drawProcess process)
  rw [List.map_map, List.map_map] at ids
  rw [List.map_map]
  exact ids

theorem ends_drawProcess : (drawProcess process).links.map Link.ends = (processWires process).map Wire.ends := by
  rw [(drawProcess_adds process).links]
  exact map_ends_linksAfter 0 _

theorem placed_of_node {n : Node} (member : n ∈ (drawProcess process).nodes) :
    ∃ x ∈ processNodes process, n.id = nodeId x.1 ∧ n.spec = x.2 := by
  have label : n.label ∈ (processNodes process).map nodeLabel :=
    labels_drawProcess process ▸ List.mem_map_of_mem member
  obtain ⟨x, placed, same⟩ := List.mem_map.mp label
  obtain ⟨id, spec⟩ := Prod.mk.inj same
  exact ⟨x, placed, id.symm, spec.symm⟩

theorem node_of_placed {x : Nat × NodeSpec} (placed : x ∈ processNodes process) :
    ∃ n ∈ (drawProcess process).nodes, n.id = nodeId x.1 ∧ n.spec = x.2 := by
  have label : nodeLabel x ∈ (drawProcess process).nodes.map Node.label :=
    labels_drawProcess process ▸ List.mem_map_of_mem placed
  obtain ⟨n, member, same⟩ := List.mem_map.mp label
  obtain ⟨id, spec⟩ := Prod.mk.inj same
  exact ⟨n, member, id, spec⟩

theorem wire_of_link {l : Link} (member : l ∈ (drawProcess process).links) :
    ∃ w ∈ processWires process, w.ends = l.ends := by
  have ends : l.ends ∈ (processWires process).map Wire.ends :=
    ends_drawProcess process ▸ List.mem_map_of_mem member
  exact List.mem_map.mp ends

theorem link_of_wire {w : Wire} (wire : w ∈ processWires process) :
    ∃ l ∈ (drawProcess process).links, l.ends = w.ends := by
  have ends : w.ends ∈ (drawProcess process).links.map Link.ends :=
    ends_drawProcess process ▸ List.mem_map_of_mem wire
  exact List.mem_map.mp ends

theorem drawProcess_first {s : Step} {rest : List Step} (steps : stepsWithin process = s :: rest) :
    ∃ first more, (drawProcess process).nodes = first :: more ∧ first.id = nodeId 1 := by
  have labels := labels_drawProcess process
  obtain ⟨below, placed⟩ := s.placed_head 0
  rw [processNodes, steps, Step.placedAll, placed] at labels
  obtain ⟨first, more, nodes, label, _⟩ := List.map_eq_cons_iff.mp labels
  exact ⟨first, more, nodes, congrArg Prod.fst label⟩

theorem outlineProcess : Outline 0 (processSize process)
    (Step.numberedAll 0 (stepsWithin process)) (processNodes process) := by
  have all := (Step.outlineAll (stepsWithin process) 0).append (.handlers _ (handlersBeside process))
  rw [List.append_nil, Nat.zero_add] at all
  exact all

theorem processWires_within : ∀ w ∈ processWires process, w.Within 0 (processSize process) := by
  intro w member
  rw [Wire.Within, processSize, handlersBeside]
  rw [processWires, handlersBeside, List.mem_append] at member
  obtain inside | aside := member
  · have := Step.wiresAll_none_within inside
    rw [Wire.Within] at this
    omega
  · split at aside
    · cases aside
    · next some =>
        have handler := wiresHandlers_within 1 _ _ w aside
        obtain ⟨s, rest, steps⟩ := List.exists_cons_of_ne_nil fun none => some (List.isEmpty_iff.mpr none)
        have first := Step.exit_bounds 0 s
        rw [steps, Step.sizeAll] at handler ⊢
        rw [if_neg (by simp)]
        omega

theorem map_nodeId_range' (n : Nat) : (List.range' 1 n).map nodeId = nodeIds n := by
  rw [List.range'_eq_map_range, List.map_map, nodeIds]
  exact List.map_congr_left fun k _ => congrArg nodeId (Nat.add_comm 1 k)

theorem drawProcess_sound : Sound [] (drawProcess process) := by
  have count := (drawProcess_adds process).nodeCount
  have links := (drawProcess_adds process).links
  refine ⟨?_, ?_, ?_⟩
  · rw [List.append_nil, ids_drawProcess, count, ← map_nodeId_range', Draft.start, Nat.zero_add]
    exact (outlineProcess process).numbers.map nodeId
  · rw [links, (drawProcess_adds process).linkCount]
    exact map_id_linksAfter 0 _
  · intro l member
    obtain ⟨w, wire, same⟩ := wire_of_link process member
    have range := processWires_within process w wire
    rw [Wire.Within, Nat.zero_add] at range
    have known : ∀ k, 0 < k → k ≤ processSize process → (drawProcess process).Known (nodeId k) := by
      intro k positive bound
      refine mem_nodeIds.mpr ⟨k, positive, ?_, rfl⟩
      rw [count]
      exact Nat.le_trans bound (Nat.le_add_left _ _)
    obtain ⟨source, target, _⟩ : nodeId w.source = l.source ∧ nodeId w.target = l.target ∧ _ := by
      simpa [Wire.ends, Link.ends] using same
    rw [← source, ← target]
    exact ⟨known _ range.1 range.2.1, known _ range.2.2.1 range.2.2.2⟩

end

/-- What the nodes of steps are and show. -/
def Draft.shown (d : Draft) : List (String × NodeSpec) :=
  (d.nodes.filter fun n => !n.isAdded).map fun n => (n.id, n.spec)

def stepLabel (p : Nat × Step) : String × NodeSpec := (nodeId p.1, p.2.head.spec)

theorem shown_drawProcess (process : Element) :
    (drawProcess process).shown = (Step.numberedAll 0 (stepsWithin process)).map stepLabel := by
  have kept (d : Draft) : d.shown = (d.nodes.map Node.label).filter fun x => !x.2.isAdded := by
    rw [List.filter_map]
    rfl
  have shown := congrArg (List.map nodeLabel) (outlineProcess process).shown
  rw [List.map_map] at shown
  rw [kept, labels_drawProcess, List.filter_map]
  exact shown

theorem step_of_node {process : Element} {n : Node} (member : n ∈ (drawProcess process).nodes)
    (plain : n.isAdded = false) :
    ∃ p ∈ Step.numberedAll 0 (stepsWithin process), n.id = nodeId p.1 ∧ n.spec = p.2.head.spec := by
  have shown : (n.id, n.spec) ∈ (drawProcess process).shown :=
    List.mem_map_of_mem (List.mem_filter.mpr ⟨member, by simp [plain]⟩)
  rw [shown_drawProcess, List.mem_map] at shown
  obtain ⟨p, step, label⟩ := shown
  obtain ⟨id, spec⟩ := Prod.mk.inj label
  exact ⟨p, step, id.symm, spec.symm⟩

/-- What was drawn last is the node `spec` under `id`, and the next one is linked from it. -/
def ClosesWith (drawn : String × Draft) (id : String) (spec : NodeSpec) : Prop :=
  drawn.1 = id ∧ ∃ earlier x y, drawn.2.nodes =
    earlier ++ [⟨id, spec.kind, spec.name, spec.activity, spec.icon, x, y, spec.data⟩]

theorem drawStep_closes (offset : Coord) (entry : Entry) (parent : Option String) (d : Draft) {s : Step}
    (branching : s.isBranching) :
    ClosesWith (drawStep offset entry parent d s) (nodeId (d.nodeCount + 2)) s.closing := by
  have close : nodeId (d.nodeCount + 2) = (drawHead s.head offset entry parent d).2.newNodeId.1 := by
    cases parent with
    | none => rfl
    | some p => rfl
  rw [drawStep_branching offset entry parent d branching, close]
  exact ⟨rfl, _, _, _, rfl⟩

end ExportDiff.Flow
