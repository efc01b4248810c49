/- Links go forward in the order of the nodes, but for one link back to each loop that holds a step. -/
import ExportDiff.Proofs.Flow.ProcessLayout
import ExportDiff.Proofs.Flow.Reading

namespace ExportDiff.Flow
open Draft Xml

/-- `b` is in the list, and `a` stands strictly before it. -/
def Precedes (ids : List String) (a b : String) : Prop := b ∈ ids ∧ ids.idxOf a < ids.idxOf b

instance (ids : List String) (a b : String) : Decidable (Precedes ids a b) :=
  inferInstanceAs (Decidable (_ ∧ _))

theorem Precedes.asymm {ids : List String} {a b : String} (h : Precedes ids a b) : ¬ Precedes ids b a := by
  intro h'
  exact Nat.lt_asymm h.2 h'.2

/-- One stands before the other, wherever they are. -/
def Before {α : Type} (xs : List α) (a b : α) : Prop := [a, b].Sublist xs

theorem Before.append {α : Type} {xs ys : List α} {a b : α} (first : a ∈ xs) (last : b ∈ ys) :
    Before (xs ++ ys) a b :=
  (List.singleton_sublist.mpr first).append (List.singleton_sublist.mpr last)

theorem Before.precedes {ids : List String} {a b : String} (h : Before ids a b) (distinct : ids.Nodup) :
    Precedes ids a b := by
  have pair : ([a] ++ [b]).Sublist ids := h
  obtain ⟨earlier, later, rfl, first, last⟩ := List.append_sublist_iff.mp pair
  have here : a ∈ earlier := List.singleton_sublist.mp first
  have there : b ∈ later := List.singleton_sublist.mp last
  have new : b ∉ earlier := fun both => (List.nodup_append.mp distinct).2.2 b both b there rfl
  have place : earlier.idxOf a < earlier.length := List.idxOf_lt_length_of_mem here
  refine ⟨List.mem_append_right earlier there, ?_⟩
  rw [List.idxOf_append_of_mem here, List.idxOf_append_of_notMem new]
  omega

/-- Wires go forward in the order of the numbers, but for these, which go back. -/
structure Ordered (numbers : List Nat) (ws backs : List Wire) : Prop where
  forth : ∃ forth, ws.Perm (forth ++ backs) ∧ ∀ w ∈ forth, Before numbers w.source w.target
  back : ∀ w ∈ backs, Before numbers w.target w.source

section
variable {xs ys : List Nat} {ws vs bs cs : List Wire} {w : Wire}

theorem Ordered.nil (xs : List Nat) : Ordered xs [] [] := ⟨⟨[], .refl _, by simp⟩, by simp⟩

theorem Ordered.forward (h : ∀ w ∈ ws, Before xs w.source w.target) : Ordered xs ws [] :=
  ⟨⟨ws, .of_eq (List.append_nil ws).symm, h⟩, by simp⟩

theorem Ordered.backward (h : ∀ w ∈ ws, Before xs w.target w.source) : Ordered xs ws ws :=
  ⟨⟨[], .refl _, by simp⟩, h⟩

theorem Ordered.mono (h : Ordered xs ws bs) (kept : xs.Sublist ys) : Ordered ys ws bs := by
  obtain ⟨forth, split, ahead⟩ := h.forth
  exact ⟨⟨forth, split, fun w member => (ahead w member).trans kept⟩,
    fun w member => (h.back w member).trans kept⟩

theorem Ordered.append (h : Ordered xs ws bs) (h' : Ordered xs vs cs) :
    Ordered xs (ws ++ vs) (bs ++ cs) := by
  obtain ⟨forth, split, ahead⟩ := h.forth
  obtain ⟨forth', split', ahead'⟩ := h'.forth
  refine ⟨⟨forth ++ forth', (split.append split').trans ?_, List.forall_mem_append.mpr ⟨ahead, ahead'⟩⟩,
    List.forall_mem_append.mpr ⟨h.back, h'.back⟩⟩
  rw [List.append_assoc, List.append_assoc, ← List.append_assoc bs, ← List.append_assoc forth']
  exact (List.perm_append_comm.append_right cs).append_left forth

theorem Ordered.reorder (h : Ordered xs ws bs) (perm : bs.Perm cs) : Ordered xs ws cs := by
  obtain ⟨forth, split, ahead⟩ := h.forth
  exact ⟨⟨forth, split.trans (perm.append_left forth), ahead⟩,
    fun w member => h.back w (perm.mem_iff.mpr member)⟩

end

/-- Links to handlers go forward from a node before them. -/
theorem ordered_handlers {xs : List Nat} {k : Nat} (member : k ∈ xs) (n : Nat) (handlers : List Handler) :
    Ordered (xs ++ (placedHandlers n handlers).map (·.1)) (wiresHandlers k n handlers) [] := by
  refine .forward ?_
  induction handlers generalizing n with
  | nil => simp [wiresHandlers]
  | cons h rest ih =>
      refine List.forall_mem_cons.mpr ⟨.append member List.mem_cons_self, fun w later => ?_⟩
      have kept : (xs ++ (placedHandlers (n + 1) rest).map (·.1)).Sublist
          (xs ++ (placedHandlers n (h :: rest)).map (·.1)) :=
        (List.Sublist.refl xs).append (List.sublist_cons_self _ _)
      exact (ih (n + 1) w later).trans kept

namespace Step

theorem exit_placed (s : Step) (n : Nat) : s.exit n ∈ (s.placed n).map (·.1) := by
  obtain ⟨low, high⟩ := exit_bounds n s
  exact (s.outline n).mem_numbers low high

theorem lastExit_placed (k n : Nat) (steps : List Step) :
    lastExit k n steps ∈ k :: (placedAll n steps).map (·.1) := by
  cases steps with
  | nil => exact List.mem_cons_self
  | cons s rest =>
      have exits := exit_bounds n s
      have range := lastExit_bounds (s.exit n) (n + s.size) exits.2 rest
      have size : sizeAll (s :: rest) = s.size + sizeAll rest := by rw [sizeAll]
      have number := (outlineAll (s :: rest) n).mem_numbers (k := lastExit (s.exit n) (n + s.size) rest)
        (by omega) (by omega)
      exact List.mem_cons_of_mem k number

def IsOrdered (s : Step) : Prop :=
  ∀ n, Ordered ((s.placed n).map (·.1)) (s.wires n) (loopWires (s.numbered n))

section
variable {steps : List Step} {parts : List (Entry × List Step)}

theorem orderedAll_of (each : ∀ s ∈ steps, s.IsOrdered) (entry : Entry) (p : Option Nat) (n : Nat) :
    Ordered (p.toList ++ (placedAll n steps).map (·.1)) (wiresAll entry p n steps)
      (loopWires (numberedAll n steps)) := by
  induction steps generalizing entry p n with
  | nil => exact .nil _
  | cons s rest ih =>
      obtain ⟨here, others⟩ := List.forall_mem_cons.mp each
      have chain := ih others .plain (some (s.exit n)) (n + s.size)
      have first : n + 1 ∈ (s.placed n).map (·.1) :=
        (s.outline n).mem_numbers (Nat.lt_succ_self n) (by have := exit_bounds n s; omega)
      have into : ∀ w ∈ wiresFrom p (n + 1) entry,
          Before (p.toList ++ (s.placed n).map (·.1)) w.source w.target := by
        intro w member
        obtain ⟨k, before, rfl⟩ := List.mem_map.mp member
        exact .append before first
      rw [placedAll, List.map_append, wiresAll, numberedAll, loopWires, List.filterMap_append]
      have left := ((Ordered.forward into).append ((here n).mono (List.sublist_append_right _ _))).mono
        (List.sublist_append_left _ ((placedAll (n + s.size) rest).map (·.1)))
      rw [List.append_assoc] at left
      refine left.append (chain.mono ?_)
      -- The rest is linked from the exit of the step, which is one of its nodes.
      have exit := (List.singleton_sublist.mpr (s.exit_placed n)).append
        (List.Sublist.refl ((placedAll (n + s.size) rest).map (·.1)))
      exact exit.trans (List.sublist_append_right _ _)

theorem orderedPart_of {p : Entry × List Step} (each : ∀ s ∈ p.2, s.IsOrdered) (k n : Nat) :
    Ordered (k :: (placedAll n p.2).map (·.1) ++ [k + 1]) (wiresPart k n p)
      (loopWires (numberedAll n p.2)) := by
  unfold wiresPart
  split
  · next none =>
      rw [List.isEmpty_iff.mp none]
      have direct : Before ([k] ++ [k + 1]) k (k + 1) := .append List.mem_cons_self List.mem_cons_self
      exact .forward (List.forall_mem_singleton.mpr direct)
  · have chain : Ordered (k :: (placedAll n p.2).map (·.1)) _ _ := orderedAll_of each p.1 (some k) n
    have out : Before (k :: (placedAll n p.2).map (·.1) ++ [k + 1]) (lastExit k n p.2) (k + 1) :=
      .append (lastExit_placed k n p.2) List.mem_cons_self
    have last : Ordered _ [⟨lastExit k n p.2, k + 1, .plain⟩] [] :=
      .forward (List.forall_mem_singleton.mpr out)
    have all := (chain.mono (List.sublist_append_left _ [k + 1])).append last
    rw [List.append_nil] at all
    exact all

theorem orderedParts_of (each : ∀ p ∈ parts, ∀ s ∈ p.2, s.IsOrdered) (k n : Nat) :
    Ordered (k :: (placedParts n parts).map (·.1) ++ [k + 1]) (wiresParts k n parts)
      (loopWires (numberedParts n parts)) := by
  induction parts generalizing n with
  | nil => exact .nil _
  | cons p rest ih =>
      obtain ⟨here, others⟩ := List.forall_mem_cons.mp each
      rw [placedParts, List.map_append, wiresParts, numberedParts, loopWires, List.filterMap_append]
      refine ((orderedPart_of here k n).mono ?_).append ((ih others (n + sizeAll p.2)).mono ?_)
      · exact ((List.sublist_append_left _ _).append (List.Sublist.refl _)).cons_cons k
      · exact ((List.sublist_append_right _ _).append (List.Sublist.refl _)).cons_cons k

end

theorem isOrdered (s : Step) : s.IsOrdered := by
  induction s using shape_induction with
  | chain s plain each =>
      intro n
      have chain := orderedAll_of each .plain (some (n + 1)) (n + 1)
      have back : ∀ w ∈ (loopWire? (n + 1, s)).toList,
          Before ([n + 1] ++ (placedAll (n + 1) s.chain).map (·.1)) w.target w.source := by
        intro w member
        obtain ⟨_, holds, rfl⟩ := loopWire?_eq_some (Option.mem_toList.mp member)
        have later := (lastExit_bounds (n + 1) (n + 1) le_rfl s.chain).2.2 holds
        obtain same | inside := List.mem_cons.mp (lastExit_placed (n + 1) (n + 1) s.chain)
        · omega
        · exact .append List.mem_cons_self inside
      have looped := (chain.append (.backward back)).reorder List.perm_append_comm
      have first : n + 1 ∈ [n + 1] ++ (placedAll (n + 1) s.chain).map (·.1) := List.mem_cons_self
      have aside := ordered_handlers first (n + 1 + sizeAll s.chain) s.handlers
      have all := (looped.mono (List.sublist_append_left _ _)).append aside
      rw [List.append_nil] at all
      rw [placed_chain n plain, wires_chain n plain, loopWires_chain n plain, List.map_cons, List.map_append]
      exact all
  | branches s branching each =>
      intro n
      have below := orderedParts_of each (n + 1) (n + 2)
      rw [placed_branching n branching, wires_branching n branching, loopWires_branching n branching,
        List.map_cons, List.map_append]
      have direct : ∀ w ∈ (if s.parts.isEmpty then [⟨n + 1, n + 2, .plain⟩] else [] : List Wire),
          Before ((n + 1) :: (placedParts (n + 2) s.parts).map (·.1) ++ [n + 2]) w.source w.target := by
        intro w member
        obtain rfl := mem_of_mem_ite member
        exact .append List.mem_cons_self List.mem_cons_self
      have all := below.append (.forward direct)
      rw [List.append_nil] at all
      exact all

end Step

theorem orderedProcess (process : Element) : Ordered ((processNodes process).map (·.1))
    (processWires process) (loopWires (Step.numberedAll 0 (stepsWithin process))) := by
  have chain : Ordered ((Step.placedAll 0 (stepsWithin process)).map (·.1)) _ _ :=
    Step.orderedAll_of (fun s _ => s.isOrdered) .plain none 0
  have kept : ((Step.placedAll 0 (stepsWithin process)).map (·.1)).Sublist
      ((processNodes process).map (·.1)) := (List.sublist_append_left _ _).map _
  have aside : Ordered ((processNodes process).map (·.1)) (wiresHandlers 1
      (Step.sizeAll (stepsWithin process)) (handlersBeside process)) [] := by
    rw [processNodes, List.map_append, handlersBeside]
    split
    · exact .nil _
    · next some =>
        obtain ⟨s, rest, steps⟩ := List.exists_cons_of_ne_nil fun none => some (List.isEmpty_iff.mpr none)
        refine ordered_handlers ((Step.outlineAll (stepsWithin process) 0).mem_numbers Nat.one_pos ?_) _ _
        have := Step.exit_bounds 0 s
        rw [steps, Step.sizeAll]
        omega
  have all := (chain.mono kept).append aside
  rw [List.append_nil] at all
  exact all

/-- A node that stands for a loop. -/
def Node.IsLoop (n : Node) : Prop :=
  n.activity = "while" ∨ n.activity = "repeatUntil" ∨ n.activity = "forEach"

theorem Activity.isLoop_iff (a : Activity) :
    a.isLoop ↔ a.name = "while" ∨ a.name = "repeatUntil" ∨ a.name = "forEach" := by
  cases a <;> decide

theorem Node.IsLoop.not_added {n : Node} (h : n.IsLoop) : n.isAdded = false := by
  rw [Node.isAdded]
  obtain same | same | same := h
  · rw [same]
    decide
  · rw [same]
    decide
  · rw [same]
    decide

/-- A link strictly back to a loop from where the last step of its body ends. -/
def LoopBack (d : Draft) (steps : List (Nat × Step)) (l : Link) : Prop :=
  ∃ k h s rest, (k, Step.loop h (s :: rest)) ∈ steps ∧ l.target = nodeId k ∧
    l.source = nodeId (Step.lastExit k k (s :: rest)) ∧ l.kind = .conditional ∧ l.label = some "loop" ∧
    Precedes d.ids l.target l.source

/-- The links that come to a node from behind it. -/
def Draft.linksBackTo (d : Draft) (id : String) : List Link :=
  d.links.filter fun l => l.target = id ∧ Precedes d.ids l.target l.source

theorem loopBack?_eq_some {p : Nat × Step} {e : Ends} (h : loopBack? p = some e) :
    ∃ head s rest, p.2 = .loop head (s :: rest) ∧
      e = (nodeId (Step.lastExit p.1 p.1 (s :: rest)), nodeId p.1, .conditional, some "loop") := by
  unfold loopBack? at h
  split at h
  · next k head s rest =>
      cases h
      exact ⟨head, s, rest, rfl, rfl⟩
  · cases h

theorem mem_loopBacks {steps : List (Nat × Step)} {e : Ends} :
    e ∈ loopBacks steps ↔ ∃ k h s rest, (k, Step.loop h (s :: rest)) ∈ steps ∧
      e = (nodeId (Step.lastExit k k (s :: rest)), nodeId k, .conditional, some "loop") := by
  rw [loopBacks, List.mem_filterMap]
  constructor
  · rintro ⟨⟨k, t⟩, member, found⟩
    obtain ⟨h, s, rest, rfl, same⟩ := loopBack?_eq_some found
    exact ⟨k, h, s, rest, member, same⟩
  · rintro ⟨k, h, s, rest, member, rfl⟩
    exact ⟨_, member, rfl⟩

theorem target_loopBack? {p : Nat × Step} {e : Ends} (h : loopBack? p = some e) : e.2.1 = nodeId p.1 := by
  obtain ⟨_, _, _, _, rfl⟩ := loopBack?_eq_some h
  rfl

section
variable {process : Element}

theorem nodup_ids : (drawProcess process).ids.Nodup :=
  (drawProcess_sound process).perm.nodup_iff.mpr (nodup_nodeIds _)

/-- The links of a process are those that go forward and those back to loops. -/
theorem drawProcess_split (process : Element) : ∃ forth : List Ends,
    ((drawProcess process).links.map Link.ends).Perm
      (forth ++ loopBacks (Step.numberedAll 0 (stepsWithin process))) ∧
    (∀ e ∈ forth, Precedes (drawProcess process).ids e.1 e.2.1) ∧
    ∀ e ∈ loopBacks (Step.numberedAll 0 (stepsWithin process)),
      Precedes (drawProcess process).ids e.2.1 e.1 := by
  obtain ⟨⟨forth, split, ahead⟩, behind⟩ := orderedProcess process
  have placed {a b : Nat} (h : Before ((processNodes process).map (·.1)) a b) :
      Precedes (drawProcess process).ids (nodeId a) (nodeId b) := by
    refine Before.precedes ?_ nodup_ids
    rw [ids_drawProcess]
    exact h.map nodeId
  rw [ends_drawProcess, ← map_ends_loopWires]
  refine ⟨forth.map Wire.ends, ?_, ?_, ?_⟩
  · rw [← List.map_append]
    exact split.map Wire.ends
  · exact List.forall_mem_map.mpr fun w member => placed (ahead w member)
  · exact List.forall_mem_map.mpr fun w member => placed (behind w member)

theorem drawProcess_links {l : Link} (member : l ∈ (drawProcess process).links) :
    Precedes (drawProcess process).ids l.source l.target ∨
      LoopBack (drawProcess process) (Step.numberedAll 0 (stepsWithin process)) l := by
  obtain ⟨forth, split, ahead, behind⟩ := drawProcess_split process
  obtain early | back := List.mem_append.mp (split.subset (List.mem_map_of_mem member))
  · exact .inl (ahead l.ends early)
  · obtain ⟨k, h, s, rest, step, ends⟩ := mem_loopBacks.mp back
    obtain ⟨source, target, kind, label⟩ : l.source = _ ∧ l.target = _ ∧ l.kind = _ ∧ l.label = _ := by
      simpa [Link.ends] using ends
    exact .inr ⟨k, h, s, rest, step, target, source, kind, label, behind l.ends back⟩

theorem length_linksBackTo (id : String) : ((drawProcess process).linksBackTo id).length =
    ((loopBacks (Step.numberedAll 0 (stepsWithin process))).filter (fun e => e.2.1 = id)).length := by
  obtain ⟨forth, split, ahead, behind⟩ := drawProcess_split process
  let back : Ends → Bool := fun e => e.2.1 = id ∧ Precedes (drawProcess process).ids e.2.1 e.1
  have links : ((drawProcess process).linksBackTo id).map Link.ends =
      ((drawProcess process).links.map Link.ends).filter back := by
    rw [List.filter_map]
    rfl
  have none : forth.filter back = [] := by
    rw [List.filter_eq_nil_iff]
    intro e member goes
    exact (ahead e member).asymm (of_decide_eq_true goes).2
  have all : (loopBacks (Step.numberedAll 0 (stepsWithin process))).filter back =
      (loopBacks (Step.numberedAll 0 (stepsWithin process))).filter (fun e => e.2.1 = id) :=
    List.filter_congr fun e member => by simp [back, behind e member]
  rw [← List.length_map Link.ends, links, (split.filter back).length_eq, List.filter_append, none, all]
  rfl

theorem nodup_numbers :
    ((Step.numberedAll 0 (stepsWithin process)).map fun p => nodeId p.1).Nodup := by
  have shown := congrArg (List.map Prod.fst) (shown_drawProcess process)
  rw [Draft.shown, List.map_map, List.map_map] at shown
  have ids : (((drawProcess process).nodes.filter fun n => !n.isAdded).map Node.id).Nodup :=
    nodup_ids.sublist (List.filter_sublist.map _)
  rw [show (fun p => nodeId p.1) = Prod.fst ∘ stepLabel from rfl, ← shown]
  exact ids

theorem isLoop_iff_of_step {n : Node} {p : Nat × Step}
    (step : p ∈ Step.numberedAll 0 (stepsWithin process)) (spec : n.spec = p.2.head.spec) :
    n.IsLoop ↔ p.2.isLoop := by
  have activity : n.activity = p.2.head.activity.name := congrArg NodeSpec.activity spec
  rw [isLoop_of_read process 0 p step, Activity.isLoop_iff, Node.IsLoop, activity]

theorem loop_of_node {n : Node} (member : n ∈ (drawProcess process).nodes) (loop : n.IsLoop) :
    ∃ k h body, (k, Step.loop h body) ∈ Step.numberedAll 0 (stepsWithin process) ∧ n.id = nodeId k ∧
      n.spec = h.spec := by
  obtain ⟨⟨k, s⟩, step, id, spec⟩ := step_of_node member loop.not_added
  have kind := (isLoop_iff_of_step step spec).mp loop
  cases s with
  | loop h body => exact ⟨k, h, body, step, id, spec⟩
  | _ => cases kind

theorem node_of_loop {k : Nat} {h : StepHead} {body : List Step}
    (step : (k, Step.loop h body) ∈ Step.numberedAll 0 (stepsWithin process)) :
    ∃ n ∈ (drawProcess process).nodes, n.id = nodeId k ∧ n.IsLoop := by
  have label : stepLabel (k, .loop h body) ∈ (drawProcess process).shown := by
    rw [shown_drawProcess]
    exact List.mem_map_of_mem step
  obtain ⟨n, member, same⟩ := List.mem_map.mp label
  obtain ⟨id, spec⟩ := Prod.mk.inj same
  exact ⟨n, (List.mem_filter.mp member).1, id, (isLoop_iff_of_step step spec).mpr rfl⟩

theorem length_linksBackTo_loop {k : Nat} {h : StepHead} {body : List Step}
    (step : (k, Step.loop h body) ∈ Step.numberedAll 0 (stepsWithin process)) :
    ((drawProcess process).linksBackTo (nodeId k)).length = if body.isEmpty then 0 else 1 := by
  have own := filter_filterMap_target (fun _ _ => target_loopBack?) nodup_numbers step
  rw [length_linksBackTo, loopBacks, own]
  cases body with
  | nil => rfl
  | cons s rest => rfl

theorem isLoop_of_linkBack {n : Node} {l : Link} (member : n ∈ (drawProcess process).nodes)
    (back : l ∈ (drawProcess process).linksBackTo n.id) : n.IsLoop := by
  obtain ⟨link, matched⟩ := List.mem_filter.mp back
  obtain ⟨target, behind⟩ := of_decide_eq_true matched
  obtain ahead | ⟨k, h, s, rest, step, loop, _⟩ := drawProcess_links link
  · exact (behind.asymm ahead).elim
  · obtain ⟨m, there, id, isLoop⟩ := node_of_loop step
    have same : m = n := List.inj_on_of_nodup_map nodup_ids there member (by rw [id, ← loop, target])
    rwa [same] at isLoop

theorem precedes_of_way {a b : String} (way : Relation.TransGen
    (fun a b => ∃ l ∈ (drawProcess process).links, ¬ LoopBack (drawProcess process)
      (Step.numberedAll 0 (stepsWithin process)) l ∧ l.source = a ∧ l.target = b) a b) :
    Precedes (drawProcess process).ids a b := by
  -- Each step of the way goes forward, for links that do not are those of loops.
  induction way with
  | single step =>
      obtain ⟨l, member, other, rfl, rfl⟩ := step
      exact (drawProcess_links member).resolve_right other
  | tail _ step ih =>
      obtain ⟨l, member, other, rfl, rfl⟩ := step
      have ahead := (drawProcess_links member).resolve_right other
      exact ⟨ahead.1, ih.2.trans ahead.2⟩

end

/-- In the order of the nodes, links go forward, except that each loop with a step in it has one link
back, from where its body ends: `lastExit` is the number of the node that the drawing of the body gives
back. No other node has one, so without them there is no way in a circle. -/
theorem drawProcess_forward_but_loops (process : Element) :
    let d := drawProcess process
    let steps := Step.numberedAll 0 (stepsWithin process)
    d.shown = steps.map stepLabel ∧
    (∀ l ∈ d.links, Precedes d.ids l.source l.target ∨ LoopBack d steps l) ∧
    (∀ offset entry (e : Draft) body,
      (drawChain offset entry (some (nodeId e.nodeCount)) e body).1 =
        some (nodeId (Step.lastExit e.nodeCount e.nodeCount body))) ∧
    (∀ n ∈ d.nodes, n.IsLoop → ∃ k h body, (k, Step.loop h body) ∈ steps ∧ n.id = nodeId k ∧
      n.spec = h.spec ∧ (d.linksBackTo n.id).length = if body.isEmpty then 0 else 1) ∧
    (∀ n ∈ d.nodes, ¬ n.IsLoop → d.linksBackTo n.id = []) ∧
    ∀ id, ¬ Relation.TransGen
      (fun a b => ∃ l ∈ d.links, ¬ LoopBack d steps l ∧ l.source = a ∧ l.target = b) id id := by
  refine ⟨shown_drawProcess process, fun l member => drawProcess_links member, ?_, ?_, ?_, ?_⟩
  · intro offset entry e body
    rw [drawChain_exit, chainExit_some]
  · intro n member loop
    obtain ⟨k, h, body, step, id, spec⟩ := loop_of_node member loop
    refine ⟨k, h, body, step, id, spec, ?_⟩
    rw [id]
    exact length_linksBackTo_loop step
  · intro n member plain
    rw [List.eq_nil_iff_forall_not_mem]
    intro l back
    exact plain (isLoop_of_linkBack member back)
  · intro id circle
    exact Nat.lt_irrefl _ (precedes_of_way circle).2

end ExportDiff.Flow
