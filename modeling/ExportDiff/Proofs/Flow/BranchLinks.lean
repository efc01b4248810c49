/- The graph of a process at its branches: what leaves a branching node, and what comes to the node that
closes it. -/
import ExportDiff.Proofs.Flow.Labels
import ExportDiff.Proofs.Flow.ProcessLayout
import ExportDiff.Proofs.Flow.Reading

namespace ExportDiff.Flow
open Draft Xml

namespace Draft

def Has (d : Draft) (id : String) (spec : NodeSpec) : Prop := ∃ n ∈ d.nodes, n.id = id ∧ n.spec = spec

end Draft

/-- The branches hold all that is numbered in them. -/
theorem flatMap_steps_drawn (k n : Nat) (parts : List (Entry × List Step)) :
    (Branch.drawn k n parts).flatMap (·.steps) = Step.numberedParts n parts := by
  induction parts generalizing n with
  | nil => rfl
  | cons p rest ih => rw [Branch.drawn, List.flatMap_cons, ih, Step.numberedParts]

namespace Draft

/-- The links that leave a node, but for those to handlers. -/
def linksFrom (d : Draft) (id : String) : List Link := d.links.filter fun l => l.source = id ∧ l.kind ≠ .error

def linksTo (d : Draft) (id : String) : List Link := d.links.filter fun l => l.target = id

theorem ends_linksFrom {d : Draft} {ws : List Wire} (links : d.links.map Link.ends = ws.map Wire.ends)
    (k : Nat) : (d.linksFrom (nodeId k)).map Link.ends = (ws.filter (Wire.leaves k)).map Wire.ends := by
  have ends : d.linksFrom (nodeId k) =
      d.links.filter ((fun e : Ends => decide (e.1 = nodeId k ∧ e.2.2.1 ≠ .error)) ∘ Link.ends) := rfl
  have wires : Wire.leaves k = (fun e : Ends => decide (e.1 = nodeId k ∧ e.2.2.1 ≠ .error)) ∘ Wire.ends := by
    funext w
    exact decide_eq_decide.mpr (and_congr_left' nodeId_injective.eq_iff.symm)
  rw [ends, wires, ← List.filter_map, links, List.filter_map]

theorem ends_linksTo {d : Draft} {ws : List Wire} (links : d.links.map Link.ends = ws.map Wire.ends)
    (k : Nat) : (d.linksTo (nodeId k)).map Link.ends = (ws.filter (Wire.comesTo k)).map Wire.ends := by
  have ends : d.linksTo (nodeId k) =
      d.links.filter ((fun e : Ends => decide (e.2.1 = nodeId k)) ∘ Link.ends) := rfl
  have wires : Wire.comesTo k = (fun e : Ends => decide (e.2.1 = nodeId k)) ∘ Wire.ends := by
    funext w
    exact decide_eq_decide.mpr nodeId_injective.eq_iff.symm
  rw [ends, wires, ← List.filter_map, links, List.filter_map]

end Draft

/-- A node that stands for branches. -/
def Node.IsBranching (n : Node) : Prop :=
  n.activity = "flow" ∨ n.activity = "if" ∨ n.activity = "switch" ∨ n.activity = "pick"

theorem Node.IsBranching.not_added {n : Node} (h : n.IsBranching) : n.isAdded = false := by
  rw [Node.isAdded]
  obtain same | same | same | same := h
  all_goals
    rw [same]
    decide

namespace Activity

def isBranching : Activity → Bool
  | .parallel | .choice | .switch | .pick => true
  | _ => false

theorem isBranching_iff (a : Activity) : a.isBranching ↔
    a.name = "flow" ∨ a.name = "if" ∨ a.name = "switch" ∨ a.name = "pick" := by
  cases a <;> decide

/-- The branches of an element, each with how its first step is linked: the activities among the
children of a parallel one, the labelled branches of the others. -/
def branchesOf (a : Activity) (e : Element) : List (Entry × List Step) :=
  match a with
  | .parallel => (stepsWithin e).map fun s => (.plain, [s])
  | _ => (a.branches e (stepsWithin e) (e.children.map fun c => (c, stepsWithin c))).map
      fun b => (⟨.conditional, some b.1⟩, b.2)

/-- The node that closes them. -/
def closingSpec (a : Activity) : NodeSpec := if a = .parallel then joinSpec else mergeSpec a

section
variable {a : Activity} (e : Element) (body : List Step) (parts : List (Element × List Step))

theorem isBranching_ofActivity : (Step.ofActivity a e body parts).isBranching = a.isBranching := by
  cases a <;> rfl

theorem parts_ofActivity : (Step.ofActivity a e (stepsWithin e)
    (e.children.map fun c => (c, stepsWithin c))).parts = a.branchesOf e := by
  cases a <;> rfl

theorem closing_ofActivity (branching : a.isBranching) :
    (Step.ofActivity a e body parts).closing = a.closingSpec := by
  cases a with
  | parallel | choice | switch | pick => rfl
  | _ => cases branching

end

theorem branchesOf_fit (a : Activity) (e : Element) : ∀ p ∈ a.branchesOf e, p.1.Fits := by
  have labelled : ∀ p ∈ (a.branches e (stepsWithin e) (e.children.map fun c => (c, stepsWithin c))).map
      (fun b => ((⟨.conditional, some b.1⟩ : Entry), b.2)), p.1.Fits := by
    intro p member
    obtain ⟨b, branch, rfl⟩ := List.mem_map.mp member
    exact branches_fit a e _ _ b branch
  cases a with
  | parallel =>
      intro p member
      obtain ⟨_, _, rfl⟩ := List.mem_map.mp member
      exact fits_plain
  | _ => exact labelled

end Activity

section
variable {process : Element} {m : Nat} {t : Step}

theorem drawProcess_branching (branching : t.isBranching)
    (member : (m + 1, t) ∈ Step.numberedAll 0 (stepsWithin process)) :
    ((drawProcess process).linksFrom (nodeId (m + 1))).map Link.ends =
        (Branch.wiresIn (m + 1) (Branch.drawn (m + 1) (m + 2) t.parts)).map Wire.ends ∧
      ((drawProcess process).linksTo (nodeId (m + 2))).map Link.ends =
        (Branch.wiresOut (m + 1) (Branch.drawn (m + 1) (m + 2) t.parts)).map Wire.ends := by
  have range := (Step.outlineAll (stepsWithin process) 0).bounds _ _ member
  have takes := Step.two_le_size branching
  have located : Located m t (processWires process) := by
    refine (Step.wiresAll_located branching .plain (by simp) member).append_right ?_
    intro w aside
    have handler := wiresHandlers_within 1 _ _ w aside
    exact ⟨fun _ => by rw [handler.2.1]; rfl, by omega⟩
  have links := ends_drawProcess process
  rw [ends_linksFrom links, ends_linksTo links, located.filter_eq fun _ => Wire.Apart.not_leaves,
    located.filter_eq fun _ => Wire.Apart.not_comesTo, filter_leaves_branching branching,
    filter_comesTo_branching branching]
  exact ⟨rfl, rfl⟩

/-- A branching step is closed by a node under the number after its own. -/
theorem drawProcess_closes (branching : t.isBranching)
    (member : (m + 1, t) ∈ Step.numberedAll 0 (stepsWithin process)) :
    (drawProcess process).Has (nodeId (m + 2)) t.closing := by
  have own : (m + 2, t.closing) ∈ t.placed m := by
    rw [Step.placed_branching m branching]
    exact List.mem_cons_of_mem _ (List.mem_append_right _ List.mem_cons_self)
  have placed := ((outlineProcess process).whole m t member).2 own
  exact node_of_placed process placed

theorem drawProcess_fits {l : Link} (member : l ∈ (drawProcess process).links) :
    (Entry.mk l.kind l.label).Fits := by
  have labelled : ∀ p ∈ Step.numberedAll 0 (stepsWithin process), p.2.Labelled := by
    intro p step
    obtain ⟨e, _, read⟩ := (readsBelow process).2 0 p step
    rw [step_readElement, Option.map_eq_some_iff] at read
    obtain ⟨a, _, same⟩ := read
    rw [Step.Labelled, ← same, Activity.parts_ofActivity]
    exact a.branchesOf_fit e
  have all : ∀ w ∈ processWires process, w.entry.Fits :=
    append_fit (Step.wiresAll_fit none 0 fits_plain (stepsWithin process) labelled)
      (wiresHandlers_fit _ _ _)
  obtain ⟨w, wire, same⟩ := wire_of_link process member
  have entry : w.entry = ⟨l.kind, l.label⟩ := by
    obtain ⟨_, _, kind, label⟩ : _ ∧ _ ∧ w.entry.kind = l.kind ∧ w.entry.label = l.label := by
      simpa [Wire.ends, Link.ends] using same
    rw [← kind, ← label]
  rw [← entry]
  exact all w wire

/-- A branching node stands for a branching step, which is that of an element of the process. -/
theorem fork_of_node {n : Node} (member : n ∈ (drawProcess process).nodes) (fork : n.IsBranching) :
    ∃ m a s, ∃ e ∈ process.walk, Activity.ofElement? e = some a ∧ (readElement e).step = some s ∧
      (m + 1, s) ∈ Step.numberedAll 0 (stepsWithin process) ∧ n.id = nodeId (m + 1) ∧
      n.spec = s.head.spec ∧ s.isBranching ∧ s.parts = a.branchesOf e ∧
      s.closing = a.closingSpec := by
  obtain ⟨⟨k, s⟩, step, id, spec⟩ := step_of_node member fork.not_added
  obtain ⟨e, below, read⟩ := (readsBelow process).2 0 (k, s) step
  have range := (Step.outlineAll (stepsWithin process) 0).bounds k s step
  obtain ⟨m, rfl⟩ : ∃ m, k = m + 1 := ⟨k - 1, by omega⟩
  obtain ⟨a, kind, rfl⟩ := Option.map_eq_some_iff.mp ((step_readElement e).symm.trans read)
  have activity : n.activity = a.name := by
    have shown : n.activity = _ := congrArg NodeSpec.activity spec
    rwa [head_ofActivity] at shown
  have branching : a.isBranching := by
    rwa [Activity.isBranching_iff, ← activity]
  refine ⟨m, a, _, e, below, kind, read, step, id, spec, ?_, Activity.parts_ofActivity e,
    Activity.closing_ofActivity e _ _ branching⟩
  rw [Activity.isBranching_ofActivity]
  exact branching

end

/-- The graph of a process at its branches. A branching node stands for a branching element, and `k` is
its number. Handlers apart, it is left by one link for each branch, in order: to the first step of the
branch, or on to the closing node when the branch is empty. The closing node has the next number, and
to it comes one link from where each branch is left, which `lastExit` tells as the drawing of a chain
does. Without branches there is one link from the node to the closing node. -/
theorem drawProcess_branches (process : Element) :
    let d := drawProcess process
    let steps := Step.numberedAll 0 (stepsWithin process)
    d.shown = steps.map stepLabel ∧
    (∀ n ∈ d.nodes, n.IsBranching → ∃ k a s, ∃ e ∈ process.walk,
      Activity.ofElement? e = some a ∧ (readElement e).step = some s ∧ (k, s) ∈ steps ∧
      n.id = nodeId k ∧ n.spec = s.head.spec ∧
      let branches := Branch.drawn k (k + 1) (a.branchesOf e)
      branches.flatMap (·.steps) ⊆ steps ∧
      (d.linksFrom n.id).map Link.ends = (Branch.wiresIn k branches).map Wire.ends ∧
      (d.linksTo (nodeId (k + 1))).map Link.ends = (Branch.wiresOut k branches).map Wire.ends ∧
      (d.linksTo (nodeId (k + 1))).length = max (a.branchesOf e).length 1 ∧
      d.Has (nodeId (k + 1)) a.closingSpec) ∧
    (∀ offset entry k (e : Draft) body, (drawChain offset entry (some (nodeId k)) e body).1 =
      some (nodeId (Step.lastExit k e.nodeCount body))) ∧
    ∀ l ∈ d.links, (Entry.mk l.kind l.label).Fits := by
  intro d steps
  refine ⟨shown_drawProcess process, ?_, ?_, fun l member => drawProcess_fits member⟩
  · intro n member fork
    obtain ⟨m, a, s, e, below, kind, read, step, id, spec, forks, parts, closing⟩ :=
      fork_of_node member fork
    obtain ⟨from_node, to_close⟩ := drawProcess_branching forks step
    have below_step := ((Step.outlineAll (stepsWithin process) 0).whole m s step).1
    rw [Step.numbered_branching m forks, List.cons_subset] at below_step
    have inner := flatMap_steps_drawn (m + 1) (m + 2) s.parts
    rw [parts] at from_node to_close inner below_step
    refine ⟨m + 1, a, s, e, below, kind, read, step, id, spec, ?_, ?_, to_close, ?_, ?_⟩
    · rw [inner]
      exact below_step.2
    · rw [id]
      exact from_node
    · rw [← List.length_map Link.ends, to_close, List.length_map, Branch.length_wiresOut,
        Branch.length_drawn]
    · rw [← closing]
      exact drawProcess_closes forks step
  · intro offset entry k e body
    rw [drawChain_exit, chainExit_some]

/-- A case that holds one step, and an empty rest. -/
def switchProcess : Element :=
  ⟨"process", [], "", [
    ⟨"switch", [], "", [
      ⟨"case", [("condition", "a > 1")], "", [⟨"assign", [], "", []⟩]⟩,
      ⟨"otherwise", [], "", []⟩]⟩]⟩

example : ((drawProcess switchProcess).linksFrom "node_1").map Link.ends =
    [("node_1", "node_3", .conditional, some "a > 1"),
      ("node_1", "node_2", .conditional, some "otherwise")] := by
  decide

end ExportDiff.Flow
