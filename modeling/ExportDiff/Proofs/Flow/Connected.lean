/- Processes are drawn in one piece: all nodes are reached from the first and lead to the last. -/
import ExportDiff.Proofs.Flow.ProcessLayout
import Mathlib.Logic.Relation

namespace ExportDiff.Flow
open Draft Xml

def Leads (links : List Link) (a b : String) : Prop := ∃ l ∈ links, l.source = a ∧ l.target = b

def Reaches (links : List Link) : String → String → Prop := Relation.ReflTransGen (Leads links)

/-- A node that stands for a handler of errors. -/
def Node.IsHandler (n : Node) : Prop := n.activity = "catch" ∨ n.activity = "catchAll"

/-- The way along wires. -/
def Wired (ws : List Wire) : Nat → Nat → Prop :=
  Relation.ReflTransGen fun a b => ∃ w ∈ ws, w.source = a ∧ w.target = b

def NodeSpec.IsHandler (s : NodeSpec) : Prop := s.activity = "catch" ∨ s.activity = "catchAll"

theorem Handler.isHandler (h : Handler) : h.spec.IsHandler := by
  rw [NodeSpec.IsHandler, Handler.spec]
  cases h.catchAll with
  | true => exact .inr rfl
  | false => exact .inl rfl

section
variable {ws vs : List Wire} {p q r : Nat} {xs ys : List (Nat × NodeSpec)} {entry : Entry}

theorem Wired.mono (h : Wired ws p q) (kept : ws ⊆ vs) : Wired vs p q := by
  refine Relation.ReflTransGen.mono ?_ p q h
  rintro a b ⟨w, member, ends⟩
  exact ⟨w, kept member, ends⟩

theorem Wired.along (member : ⟨p, q, entry⟩ ∈ ws) : Wired ws p q := .single ⟨_, member, rfl, rfl⟩

/-- These nodes are reached from `p` and, handlers aside, lead on to `q`. -/
def Covers (p q : Nat) (nodes : List (Nat × NodeSpec)) (ws : List Wire) : Prop :=
  ∀ x ∈ nodes, Wired ws p x.1 ∧ (x.2.IsHandler ∨ Wired ws x.1 q)

/-- And there is a way through. -/
structure Spans (p q : Nat) (nodes : List (Nat × NodeSpec)) (ws : List Wire) : Prop where
  covers : Covers p q nodes ws
  through : Wired ws p q

theorem Covers.mono (h : Covers p q xs ws) (kept : ws ⊆ vs) : Covers p q xs vs := by
  intro x member
  obtain ⟨reached, out⟩ := h x member
  exact ⟨reached.mono kept, out.imp_right fun leads => leads.mono kept⟩

theorem Covers.append (h : Covers p q xs ws) (h' : Covers p q ys ws) : Covers p q (xs ++ ys) ws := by
  intro x member
  exact (List.mem_append.mp member).elim (h x) (h' x)

theorem Spans.mono (h : Spans p q xs ws) (kept : ws ⊆ vs) : Spans p q xs vs :=
  ⟨h.covers.mono kept, h.through.mono kept⟩

theorem Spans.refl (p : Nat) (ws : List Wire) : Spans p p [] ws := ⟨by simp [Covers], .refl⟩

theorem Spans.trans (h : Spans p q xs ws) (h' : Spans q r ys vs) : Spans p r (xs ++ ys) (ws ++ vs) := by
  have first := h.mono (List.subset_append_left ws vs)
  have last := h'.mono (List.subset_append_right ws vs)
  refine ⟨?_, first.through.trans last.through⟩
  intro x member
  obtain early | late := List.mem_append.mp member
  · obtain ⟨reached, out⟩ := first.covers x early
    exact ⟨reached, out.imp_right fun leads => leads.trans last.through⟩
  · obtain ⟨reached, out⟩ := last.covers x late
    exact ⟨first.through.trans reached, out⟩

/-- A wire on from the end of a span. -/
theorem Spans.wire (h : Spans p q xs ws) (r : Nat) (entry : Entry) :
    Spans p r xs (ws ++ [⟨q, r, entry⟩]) := by
  have last : Spans q r [] [⟨q, r, entry⟩] := ⟨by simp [Covers], .along List.mem_cons_self⟩
  have all := h.trans last
  rwa [List.append_nil] at all

/-- A node is before what is reached from it. -/
theorem Spans.cons (h : Spans p q xs ws) (spec : NodeSpec) : Spans p q ((p, spec) :: xs) ws :=
  ⟨List.forall_mem_cons.mpr ⟨⟨.refl, .inr h.through⟩, h.covers⟩, h.through⟩

theorem covers_handlers (p q n : Nat) (handlers : List Handler) :
    Covers p q (placedHandlers n handlers) (wiresHandlers p n handlers) := by
  induction handlers generalizing n with
  | nil => simp [placedHandlers, Covers]
  | cons x rest ih =>
      refine List.forall_mem_cons.mpr ⟨⟨.along List.mem_cons_self, .inl x.isHandler⟩, ?_⟩
      exact (ih (n + 1)).mono (List.subset_cons_self _ _)

/-- Handlers beside a span are reached from where it begins. -/
theorem Spans.handlers (h : Spans p q xs ws) (n : Nat) (handlers : List Handler) :
    Spans p q (xs ++ placedHandlers n handlers) (ws ++ wiresHandlers p n handlers) := by
  have kept := h.mono (List.subset_append_left ws (wiresHandlers p n handlers))
  have beside := (covers_handlers p q n handlers).mono (List.subset_append_right ws _)
  exact ⟨kept.covers.append beside, kept.through⟩

end

namespace Step

/-- A step is drawn between its own node and the one that the next step is linked from. -/
def IsSpanned (s : Step) : Prop := ∀ n, Spans (n + 1) (s.exit n) (s.placed n) (s.wires n)

section
variable {steps : List Step} {parts : List (Entry × List Step)}

theorem spansAll_of (each : ∀ s ∈ steps, s.IsSpanned) (entry : Entry) (k n : Nat) :
    Spans k (lastExit k n steps) (placedAll n steps) (wiresAll entry (some k) n steps) := by
  induction steps generalizing entry k n with
  | nil => exact .refl k _
  | cons s rest ih =>
      obtain ⟨here, others⟩ := List.forall_mem_cons.mp each
      have into : Spans k (n + 1) [] (wiresFrom (some k) (n + 1) entry) :=
        (Spans.refl k []).wire (n + 1) entry
      exact (into.trans (here n)).trans (ih others .plain (s.exit n) (n + s.size))

theorem spansPart_of {p : Entry × List Step} (each : ∀ s ∈ p.2, s.IsSpanned) (k n : Nat) :
    Spans k (k + 1) (placedAll n p.2) (wiresPart k n p) := by
  unfold wiresPart
  split
  · next none =>
      rw [List.isEmpty_iff.mp none]
      exact (Spans.refl k []).wire (k + 1) p.1
  · exact (spansAll_of each p.1 k n).wire (k + 1) .plain

theorem spansParts_of (each : ∀ p ∈ parts, ∀ s ∈ p.2, s.IsSpanned) (k n : Nat) :
    Covers k (k + 1) (placedParts n parts) (wiresParts k n parts) ∧
      (parts ≠ [] → Wired (wiresParts k n parts) k (k + 1)) := by
  induction parts generalizing n with
  | nil => exact ⟨by simp [placedParts, Covers], fun some => (some rfl).elim⟩
  | cons p rest ih =>
      obtain ⟨here, others⟩ := List.forall_mem_cons.mp each
      have branch := (spansPart_of here k n).mono
        (List.subset_append_left _ (wiresParts k (n + sizeAll p.2) rest))
      have later := (ih others (n + sizeAll p.2)).1.mono (List.subset_append_right (wiresPart k n p) _)
      exact ⟨branch.covers.append later, fun _ => branch.through⟩

end

theorem isSpanned (s : Step) : s.IsSpanned := by
  induction s using shape_induction with
  | chain s plain each =>
      intro n
      have chain := spansAll_of each .plain (n + 1) (n + 1)
      have looped : Spans (n + 1) (s.exit n) (placedAll (n + 1) s.chain)
          (wiresAll .plain (some (n + 1)) (n + 1) s.chain ++ (loopWire? (n + 1, s)).toList) := by
        rw [exit_chain n plain, loopWire?_eq]
        by_cases loop : s.isLoop
        · by_cases none : s.chain = []
          · -- An empty chain ends at the loop itself, which is not linked to itself.
            rw [if_pos loop, if_neg (fun some => some.2 none), none]
            exact .refl _ _
          · rw [if_pos loop, if_pos ⟨loop, none⟩]
            exact chain.wire (n + 1) .loop
        · rw [if_neg loop, if_neg (fun some => loop some.1), Option.toList_none, List.append_nil]
          exact chain
      rw [placed_chain n plain, wires_chain n plain]
      exact (looped.handlers _ s.handlers).cons s.head.spec
  | branches s branching each =>
      intro n
      obtain ⟨below, through⟩ := spansParts_of each (n + 1) (n + 2)
      rw [placed_branching n branching, wires_branching n branching, exit_branching n branching]
      have along : Wired (wiresParts (n + 1) (n + 2) s.parts ++
          if s.parts.isEmpty then [⟨n + 1, n + 2, .plain⟩] else []) (n + 1) (n + 2) := by
        split
        · -- Without branches the closing node is linked directly.
          exact .along (List.mem_append_right _ List.mem_cons_self)
        · next some =>
            rw [List.append_nil]
            exact through fun none => some (List.isEmpty_iff.mpr none)
      have close : Covers (n + 1) (n + 2) [(n + 2, s.closing)] _ :=
        List.forall_mem_singleton.mpr ⟨along, .inr .refl⟩
      exact Spans.cons ⟨(below.mono (List.subset_append_left _ _)).append close, along⟩ s.head.spec

end Step

/-- A process with a step is spanned from its first node to the exit of its last step. -/
theorem spansProcess {process : Element} {s : Step} {rest : List Step}
    (steps : stepsWithin process = s :: rest) :
    Spans 1 (Step.lastExit (s.exit 0) (0 + s.size) rest) (processNodes process) (processWires process) := by
  have others : Spans (s.exit 0) _ (Step.placedAll (0 + s.size) rest) _ :=
    Step.spansAll_of (fun t _ => t.isSpanned) .plain (s.exit 0) (0 + s.size)
  have chain := (s.isSpanned 0).trans others
  rw [processNodes, processWires, steps, Step.wiresAll_none]
  exact chain.handlers _ _

/-- All nodes are reached from the first, and all but handlers lead to one of them. -/
structure SingleEntryExit (d : Draft) (exit : String) : Prop where
  entry : ∃ first ∈ d.nodes.head?, ∀ n ∈ d.nodes, Reaches d.links first.id n.id
  placed : exit ∈ d.ids
  leaves : ∀ n ∈ d.nodes, ¬ n.IsHandler → Reaches d.links n.id exit

section
variable {process : Element}

theorem Wired.reaches {a b : Nat} (h : Wired (processWires process) a b) :
    Reaches (drawProcess process).links (nodeId a) (nodeId b) := by
  refine Relation.ReflTransGen.lift nodeId ?_ _ _ h
  rintro _ _ ⟨w, wire, rfl, rfl⟩
  obtain ⟨l, link, same⟩ := link_of_wire process wire
  exact ⟨l, link, congrArg Prod.fst same, congrArg (·.2.1) same⟩

/-- A process with an activity is drawn from its first node to where the chain of its activities ends. -/
theorem drawProcess_connected (process : Element)
    (h : ∃ c ∈ process.children, (Activity.ofElement? c).isSome) :
    ∃ exit, (drawSteps (stepsWithin process)).1 = some exit ∧
      SingleEntryExit (drawProcess process) exit := by
  have holds : stepsWithin process ≠ [] := by
    intro none
    obtain ⟨c, child, activity⟩ := h
    rw [stepsWithin_eq_nil.mp none c child] at activity
    cases activity
  obtain ⟨s, rest, steps⟩ := List.exists_cons_of_ne_nil holds
  have span := spansProcess steps
  obtain ⟨first, more, nodes, id⟩ := drawProcess_first process steps
  have last : (drawSteps (s :: rest)).1 = some (nodeId (Step.lastExit (s.exit 0) (0 + s.size) rest)) :=
    drawChain_exit (.ofInt 0) .plain none (.start processGrid firstRow) (s :: rest)
  rw [← steps] at last
  refine ⟨_, last, ⟨first, ?_, ?_⟩, ?_, ?_⟩
  · rw [nodes]
    rfl
  · intro n member
    obtain ⟨x, placed, same, _⟩ := placed_of_node process member
    rw [id, same]
    exact (span.covers x placed).1.reaches
  · have exits := Step.exit_bounds 0 s
    have range := Step.lastExit_bounds (s.exit 0) (0 + s.size) exits.2 rest
    have size : processSize process = s.size + Step.sizeAll rest + (handlersBeside process).length := by
      rw [processSize, steps, Step.sizeAll]
    rw [ids_drawProcess]
    exact List.mem_map_of_mem ((outlineProcess process).mem_numbers (by omega) (by omega))
  · intro n member plain
    obtain ⟨x, placed, same, spec⟩ := placed_of_node process member
    rw [same]
    obtain handler | leads := (span.covers x placed).2
    · rw [← spec] at handler
      exact (plain handler).elim
    · exact leads.reaches

end

/-- Empty branches, an empty loop in a loop, and a handler beside an empty scope. -/
def hollowProcess : Element :=
  ⟨"process", [], "", [
    ⟨"flow", [], "", [
      ⟨"while", [], "", [⟨"repeatUntil", [], "", []⟩]⟩,
      ⟨"if", [], "", [⟨"else", [], "", []⟩]⟩,
      ⟨"flow", [], "", []⟩]⟩,
    ⟨"scope", [], "", [⟨"faultHandlers", [], "", [⟨"catchAll", [], "", []⟩]⟩]⟩]⟩

theorem hollowProcess_connected :
    (∃ c ∈ hollowProcess.children, (Activity.ofElement? c).isSome) ∧
      ∃ exit, (drawSteps (stepsWithin hollowProcess)).1 = some exit ∧
        SingleEntryExit (drawProcess hollowProcess) exit :=
  ⟨by decide, drawProcess_connected hollowProcess (by decide)⟩

end ExportDiff.Flow
