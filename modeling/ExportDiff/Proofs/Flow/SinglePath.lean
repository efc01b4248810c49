/- The flow of an orchestration is one path in document order, and its error handlers stand aside. -/
import ExportDiff.Proofs.Flow.ProjectLayout

namespace ExportDiff.Flow
open Draft Text Xml

/-- What a node of an orchestration is drawn for. -/
inductive Part where
  | element (e : Element)
  /-- The end of a container. -/
  | close (e : Element)
  /-- A handler of the element at a position, or of the root, which has no node. -/
  | handler (e : Element) (container : Option Nat)

namespace Part

def spec (ds : Declared) : Part → NodeSpec
  | .element e => elementSpec ds e
  | .close e => endSpec ds e
  | .handler e _ => catchAllSpec ds e

def isAside : Part → Bool
  | .handler _ _ => true
  | _ => false

end Part

def handlerParts (container : Option Nat) (children : List Element) : List Part :=
  (children.filter (·.tag = "catchAll")).map (.handler · container)

mutual

/-- An element and what it holds in document order, from the position `n` on: handlers come after
the rest, and a container is closed after its handlers. -/
def partsOf (n : Nat) : Element → List Part
  | ⟨tag, attributes, text, children⟩ =>
      let e : Element := ⟨tag, attributes, text, children⟩
      if isContainer tag then
        .element e :: (partsWithin (n + 1) children ++ handlerParts (some n) children ++ [.close e])
      else if isBranch tag then
        .element e :: (partsWithin (n + 1) children ++ handlerParts (some n) children)
      else [.element e]

def partsWithin (n : Nat) : List Element → List Part
  | [] => []
  | e :: rest =>
      if isOrchestrated e.tag then
        let first := partsOf n e
        first ++ partsWithin (n + first.length) rest
      else partsWithin n rest

end

def orchestrationParts (root : Element) : List Part :=
  partsWithin 0 root.children ++ handlerParts none root.children

def partLabel (ds : Declared) (p : Part × Nat) : String × NodeSpec := (nodeId (p.2 + 1), p.1.spec ds)

/-- The ids of the parts that do not stand aside. -/
def mainIds (parts : List Part) : List String :=
  (parts.zipIdx.filter fun p => !p.1.isAside).map fun p => nodeId (p.2 + 1)

/-- The link to a handler from its container, or from the first node if that is not the handler. -/
def handlerLink? : Part × Nat → Option Ends
  | (.handler _ container, k) =>
      if k = 0 then none
      else some (nodeId (container.getD 0 + 1), nodeId (k + 1), .error, some "error")
  | _ => none

def handlerLinks (parts : List Part) : List Ends := parts.zipIdx.filterMap handlerLink?

/-- Each one with the next. -/
def pairs (ids : List String) : List (String × String) := ids.zip ids.tail

/-- A handler is a child of the element at its position, or else of the root. -/
def Anchored (root : Element) (parts : List Part) (handler : Element) : Option Nat → Prop
  | some n => ∃ e, parts[n]? = some (.element e) ∧ handler ∈ e.childrenNamed "catchAll"
  | none => handler ∈ root.childrenNamed "catchAll"

section
variable {ds : Declared} {root : Element} {parts : List Part} {parent : Option String} {d : Draft}

theorem pairs_append (ids : List String) (id : String) :
    pairs (ids ++ [id]) = pairs ids ++ ids.getLast?.toList.map (·, id) := by
  induction ids with
  | nil => rfl
  | cons first rest ih =>
      cases rest with
      | nil => rfl
      | cons second rest =>
          rw [List.getLast?_cons_cons]
          exact congrArg ((first, second) :: ·) ih

theorem zipIdx_append_one (parts : List Part) (p : Part) :
    (parts ++ [p]).zipIdx = parts.zipIdx ++ [(p, parts.length)] := by
  simp [List.zipIdx_append]

theorem mainIds_append (parts : List Part) (p : Part) :
    mainIds (parts ++ [p]) =
      mainIds parts ++ if p.isAside then [] else [nodeId (parts.length + 1)] := by
  rw [mainIds, zipIdx_append_one, List.filter_append, List.map_append, ← mainIds]
  cases aside : p.isAside with
  | true => simp [aside]
  | false => simp [aside]

theorem handlerLinks_append (parts : List Part) (p : Part) :
    handlerLinks (parts ++ [p]) = handlerLinks parts ++ (handlerLink? (p, parts.length)).toList := by
  rw [handlerLinks, zipIdx_append_one, List.filterMap_append, ← handlerLinks]
  rfl

theorem Anchored.mono {e : Element} {container : Option Nat} (h : Anchored root parts e container)
    (more : List Part) : Anchored root (parts ++ more) e container := by
  cases container with
  | none => exact h
  | some n =>
      obtain ⟨c, there, child⟩ := h
      obtain ⟨bound, _⟩ := List.getElem?_eq_some_iff.mp there
      exact ⟨c, by rw [List.getElem?_append_left bound, there], child⟩

/-- The nodes are those of the parts in their order, and show which ones stand aside. -/
structure PlacedAs (ds : Declared) (root : Element) (parts : List Part) (d : Draft) : Prop where
  count : d.nodeCount = parts.length
  nodes : d.nodes.map (fun n => (n.id, n.spec)) = parts.zipIdx.map (partLabel ds)
  told : ∀ p ∈ parts, p.isAside ↔ (p.spec ds).activity = "catchAll"
  anchored : ∀ e container, .handler e container ∈ parts → Anchored root parts e container

theorem PlacedAs.append {d' : Draft} (h : PlacedAs ds root parts d) {p : Part} (offset rows : Coord)
    (told : p.isAside ↔ (p.spec ds).activity = "catchAll")
    (anchored : ∀ e container, p = .handler e container → Anchored root parts e container)
    (count : d'.nodeCount = d.nodeCount + 1)
    (nodes : d'.nodes = (d.place (p.spec ds) offset rows).2.nodes) :
    PlacedAs ds root (parts ++ [p]) d' := by
  refine ⟨?_, ?_, ?_, ?_⟩
  · rw [count, h.count, List.length_append, List.length_singleton]
  · rw [nodes]
    change (d.nodes ++ [_]).map _ = _
    rw [zipIdx_append_one, List.map_append, List.map_append, h.nodes, ← h.count]
    rfl
  · intro q member
    obtain old | new := List.mem_append.mp member
    · exact h.told q old
    · rw [List.mem_singleton.mp new]
      exact told
  · intro e container member
    obtain old | new := List.mem_append.mp member
    · exact (h.anchored e container old).mono [p]
    · exact (anchored e container (List.mem_singleton.mp new).symm).mono [p]

/-- The plain links join the parts of the path one after another, up to where the next is linked
from; other links are those to handlers. -/
structure DrawnAs (ds : Declared) (root : Element) (parts : List Part) (parent : Option String)
    (d : Draft) : Prop extends PlacedAs ds root parts d where
  path : (d.links.filter (·.kind = .plain)).map (fun l => (l.source, l.target)) = pairs (mainIds parts)
  asides : (d.links.filter (·.kind ≠ .plain)).map Link.ends = handlerLinks parts
  parent : parent = (mainIds parts).getLast?

theorem drawnAs_start (ds : Declared) (root : Element) (grid : Grid) (row : Coord) :
    DrawnAs ds root [] none (.start grid row) :=
  ⟨⟨rfl, rfl, by simp, by simp⟩, rfl, rfl, rfl⟩

theorem DrawnAs.anchor (h : DrawnAs ds root parts parent d) (container : Option Nat) :
    (container.map fun n => nodeId (n + 1)).or (d.nodes.head?.map (·.id)) =
      if container = none ∧ parts = [] then none else some (nodeId (container.getD 0 + 1)) := by
  cases container with
  | some n => rfl
  | none =>
      have first : (d.nodes.map fun n => (n.id, n.spec)).head?.map Prod.fst = d.nodes.head?.map (·.id) := by
        rw [List.head?_map, Option.map_map]
        rfl
      rw [Option.map_none, Option.none_or, ← first, h.nodes]
      cases parts with
      | nil => rfl
      | cons p rest => rfl

/-- What is not a handler is linked from the end of the path, and is its new end. -/
theorem DrawnAs.append_main (h : DrawnAs ds root parts parent d) {p : Part} (main : p.isAside = false)
    (shows : (p.spec ds).activity ≠ "catchAll") (offset rows : Coord) :
    let placed := d.place (p.spec ds) offset rows
    DrawnAs ds root (parts ++ [p]) (some placed.1) (placed.2.linkFrom parent placed.1 .plain none) := by
  intro placed
  have id : placed.1 = nodeId (parts.length + 1) := congrArg (fun n => nodeId (n + 1)) h.count
  have ids : mainIds (parts ++ [p]) = mainIds parts ++ [placed.1] := by
    rw [mainIds_append, main, id]
    rfl
  have none_aside : handlerLinks (parts ++ [p]) = handlerLinks parts := by
    have none : handlerLink? (p, parts.length) = none := by
      cases p with
      | element e | close e => rfl
      | handler e container => cases main
    rw [handlerLinks_append, none, Option.toList_none, List.append_nil]
  refine ⟨h.append offset rows ?_ ?_ nodeCount_linkFrom nodes_linkFrom, ?_, ?_, ?_⟩
  · exact iff_of_false (by simp [main]) shows
  · rintro e container rfl
    cases main
  · rw [ids, pairs_append, ← h.path, ← h.parent, links_linkFrom, List.filter_append, List.map_append]
    cases parent with
    | none => rfl
    | some before => rfl
  · rw [none_aside, ← h.asides, links_linkFrom, List.filter_append, List.map_append]
    cases parent with
    | none => exact List.append_nil _
    | some before => exact List.append_nil _
  · rw [ids, List.getLast?_concat]

/-- A handler leaves the path as it is. -/
theorem DrawnAs.append_handler (h : DrawnAs ds root parts parent d) {e : Element}
    {container : Option Nat} (anchored : Anchored root parts e container) (offset rows : Coord) :
    let placed := d.place (catchAllSpec ds e) offset rows
    let anchor := (container.map fun n => nodeId (n + 1)).or (d.nodes.head?.map (·.id))
    DrawnAs ds root (parts ++ [.handler e container]) parent
      (placed.2.linkFrom anchor placed.1 .error (some "error")) := by
  intro placed anchor
  have id : placed.1 = nodeId (parts.length + 1) := congrArg (fun n => nodeId (n + 1)) h.count
  have ids : mainIds (parts ++ [.handler e container]) = mainIds parts := by
    rw [mainIds_append]
    exact List.append_nil _
  -- Nothing is there yet only when a handler of the root comes first.
  have nothing : (container = none ∧ parts = []) ↔ parts.length = 0 := by
    rw [List.length_eq_zero_iff]
    refine ⟨fun both => both.2, fun empty => ⟨?_, empty⟩⟩
    cases container with
    | none => rfl
    | some n =>
        obtain ⟨_, there, _⟩ := anchored
        rw [empty] at there
        cases there
  have from_anchor : anchor = if parts.length = 0 then none else some (nodeId (container.getD 0 + 1)) := by
    rw [show anchor = _ from h.anchor container]
    simp only [nothing]
  refine ⟨h.append offset rows ?_ ?_ nodeCount_linkFrom nodes_linkFrom, ?_, ?_, ?_⟩
  · exact iff_of_true rfl rfl
  · rintro e container ⟨⟩
    exact anchored
  · rw [ids, ← h.path, links_linkFrom, List.filter_append, List.map_append]
    cases anchor with
    | none => exact List.append_nil _
    | some before => exact List.append_nil _
  · rw [handlerLinks_append, ← h.asides, links_linkFrom, List.filter_append, List.map_append,
      from_anchor, id, handlerLink?]
    split
    · rfl
    · rfl
  · rw [ids, h.parent]

theorem drawCatchAlls_drawnAs (container : Option Nat) (children : List Element)
    {anchor : Option String} (h : DrawnAs ds root parts parent d)
    (node : anchor = container.map fun n => nodeId (n + 1))
    (anchored : ∀ e ∈ children.filter (·.tag = "catchAll"), Anchored root parts e container) :
    DrawnAs ds root (parts ++ handlerParts container children) parent
      (drawCatchAlls ds anchor children d) := by
  subst node
  unfold drawCatchAlls handlerParts
  generalize children.filter (·.tag = "catchAll") = catchAlls at anchored
  induction catchAlls generalizing parts d with
  | nil =>
      rw [List.map_nil, List.append_nil]
      exact h
  | cons e rest ih =>
      have one := h.append_handler (anchored e List.mem_cons_self) handlerOffset oneRow
      have all := ih one fun x member => (anchored x (List.mem_cons_of_mem e member)).mono _
      rw [List.append_assoc] at all
      exact all

theorem DrawnAs.parent_some (h : DrawnAs ds root parts parent d) {p : Part} (member : p ∈ parts)
    (main : p.isAside = false) (id : String) : parent = some (parent.getD id) := by
  obtain ⟨k, bound, here⟩ := List.mem_iff_getElem.mp member
  have indexed : (p, k) ∈ parts.zipIdx := by
    rw [List.mk_mem_zipIdx_iff_getElem?, List.getElem?_eq_getElem bound, here]
  have some_main : mainIds parts ≠ [] := by
    refine List.ne_nil_of_mem (a := nodeId (k + 1)) ?_
    exact List.mem_map_of_mem (List.mem_filter.mpr ⟨indexed, by simp [main]⟩)
  rw [h.parent, List.getLast?_eq_getLast_of_ne_nil some_main]
  rfl

theorem ne_catchAll_of_mem {s : String} {c : Char} (member : c ∈ s.toList)
    (other : c ∉ "catchAll".toList) : s ≠ "catchAll" := by
  rintro rfl
  exact other member

theorem elementSpec_ne_catchAll (ds : Declared) {e : Element} (orchestrated : isOrchestrated e.tag) :
    (elementSpec ds e).activity ≠ "catchAll" := by
  have tag : e.tag ≠ "catchAll" := by
    intro same
    rw [same] at orchestrated
    exact absurd orchestrated (by decide)
  have shown : ∀ code, e.tag ++ " (" ++ code ++ ")" ≠ "catchAll" := by
    intro code
    refine ne_catchAll_of_mem (c := '(') ?_ (by decide)
    simp [String.toList_append]
  change (displayed ds e).2 ≠ "catchAll"
  unfold displayed
  dsimp only
  split
  · split
    · exact (by decide : "Map" ≠ "catchAll")
    · split
      · exact (by decide : "Stage File" ≠ "catchAll")
      · split
        · exact shown _
        · exact tag
  · split
    · exact shown _
    · exact tag

theorem endSpec_ne_catchAll (ds : Declared) (e : Element) : (endSpec ds e).activity ≠ "catchAll" := by
  change e.tag ++ "End" ≠ "catchAll"
  refine ne_catchAll_of_mem (c := 'E') ?_ (by decide)
  simp [String.toList_append]

end

mutual

theorem drawElement_drawnAs {ds : Declared} {root : Element} {parts : List Part}
    {parent : Option String} {d : Draft} (h : DrawnAs ds root parts parent d) :
    (e : Element) → isOrchestrated e.tag →
      DrawnAs ds root (parts ++ partsOf parts.length e) (some (drawElement ds parent d e).1)
        (drawElement ds parent d e).2
  | ⟨tag, attributes, text, children⟩ => by
      intro orchestrated
      let e : Element := ⟨tag, attributes, text, children⟩
      have head := h.append_main (p := .element e) rfl (elementSpec_ne_catchAll ds orchestrated)
        (.ofInt 0) oneRow
      have chain := drawElements_drawnAs head children
      have here (more : List Part) : (parts ++ [.element e] ++ more)[parts.length]? = some (.element e) := by
        simp
      have handlers := drawCatchAlls_drawnAs (some parts.length) children chain
        (congrArg (fun n => some (nodeId (n + 1))) h.count) (fun x member => ⟨e, here _, member⟩)
      -- The path goes on from what is within, or from the element itself when nothing is.
      have last := chain.parent_some (p := .element e) (by simp) rfl (nodeId (d.nodeCount + 1))
      rw [List.length_append, List.length_singleton] at handlers
      rw [drawElement, partsOf]
      dsimp only
      split
      · have closed := handlers.append_main (p := .close e) rfl (endSpec_ne_catchAll ds e)
          (.ofInt 0) oneRow
        rw [last] at closed
        simp only [List.append_assoc, List.singleton_append] at closed
        rw [List.append_assoc]
        exact closed
      · split
        · rw [last] at handlers
          simp only [List.append_assoc, List.singleton_append] at handlers
          exact handlers
        · exact head

theorem drawElements_drawnAs {ds : Declared} {root : Element} {parts : List Part}
    {parent : Option String} {d : Draft} (h : DrawnAs ds root parts parent d) :
    (elements : List Element) →
      DrawnAs ds root (parts ++ partsWithin parts.length elements) (drawElements ds parent d elements).1
        (drawElements ds parent d elements).2
  | [] => by
      rw [drawElements, partsWithin, List.append_nil]
      exact h
  | e :: rest => by
      rw [drawElements, partsWithin]
      split
      · next orchestrated =>
          have first := drawElement_drawnAs h e orchestrated
          have chain := drawElements_drawnAs first rest
          rw [List.append_assoc, List.length_append] at chain
          exact chain
      · exact drawElements_drawnAs h rest

end

theorem drawOrchestration_drawnAs (ds : Declared) (o : Element) :
    let root := (o.child? "globalTry").getD o
    ∃ parent, DrawnAs ds root (orchestrationParts root) parent (drawOrchestration ds o) := by
  intro root
  have chain := drawElements_drawnAs (drawnAs_start ds root projectGrid firstRow) root.children
  exact ⟨_, drawCatchAlls_drawnAs none root.children chain rfl fun e member => member⟩

section
variable {ds : Declared} {root : Element} {parts : List Part} {parent : Option String} {d : Draft}

theorem DrawnAs.main_nodes (h : DrawnAs ds root parts parent d) :
    (d.nodes.filter (·.activity ≠ "catchAll")).map (fun n => (n.id, n.spec)) =
      (parts.zipIdx.filter fun p => !p.1.isAside).map (partLabel ds) := by
  have shown : d.nodes.filter (·.activity ≠ "catchAll") =
      d.nodes.filter ((·.2.activity ≠ "catchAll") ∘ fun n => (n.id, n.spec)) := rfl
  rw [shown, ← List.filter_map, h.nodes, List.filter_map]
  congr 1
  -- What a node shows tells whether its part stands aside.
  refine List.filter_congr fun p member => ?_
  have told := h.told p.1 (List.fst_mem_of_mem_zipIdx member)
  change decide ((p.1.spec ds).activity ≠ "catchAll") = !p.1.isAside
  cases aside : p.1.isAside with
  | true => simpa [aside] using told
  | false => simpa [aside] using told

theorem DrawnAs.main_ids (h : DrawnAs ds root parts parent d) :
    (d.nodes.filter (·.activity ≠ "catchAll")).map (·.id) = mainIds parts := by
  have ids := congrArg (List.map Prod.fst) h.main_nodes
  rw [List.map_map, List.map_map] at ids
  exact ids

theorem DrawnAs.main_specs (h : DrawnAs ds root parts parent d) :
    (d.nodes.filter (·.activity ≠ "catchAll")).map Node.spec =
      (parts.filter fun p => !p.isAside).map (Part.spec ds) := by
  have specs := congrArg (List.map Prod.snd) h.main_nodes
  rw [List.map_map, List.map_map] at specs
  have unindexed : (parts.zipIdx.filter fun p => !p.1.isAside).map Prod.fst =
      parts.filter fun p => !p.isAside := by
    conv_rhs => rw [← List.zipIdx_map_fst 0 parts, List.filter_map]
    rfl
  rw [← unindexed, List.map_map]
  exact specs

theorem DrawnAs.part_of_node (h : DrawnAs ds root parts parent d) {n : Node} (member : n ∈ d.nodes)
    (aside : n.activity = "catchAll") : ∃ k e container, parts[k]? = some (.handler e container) ∧
      n.id = nodeId (k + 1) ∧ n.spec = catchAllSpec ds e := by
  have label : (n.id, n.spec) ∈ parts.zipIdx.map (partLabel ds) := by
    rw [← h.nodes]
    exact List.mem_map_of_mem member
  obtain ⟨⟨p, k⟩, indexed, same⟩ := List.mem_map.mp label
  obtain ⟨id, spec⟩ := Prod.mk.inj same
  have here := List.mk_mem_zipIdx_iff_getElem?.mp indexed
  have standsAside : p.isAside := by
    rw [h.told p (List.mem_of_getElem? here), spec]
    exact aside
  cases p with
  | element e | close e => cases standsAside
  | handler e container => exact ⟨k, e, container, here, id.symm, spec.symm⟩

theorem DrawnAs.not_on_path (h : DrawnAs ds root parts parent d) {k : Nat} {e : Element}
    {container : Option Nat} (here : parts[k]? = some (.handler e container)) {l : Link}
    (member : l ∈ d.links) (plain : l.kind = .plain) :
    l.source ≠ nodeId (k + 1) ∧ l.target ≠ nodeId (k + 1) := by
  have off : nodeId (k + 1) ∉ mainIds parts := by
    intro there
    obtain ⟨⟨p, j⟩, indexed, same⟩ := List.mem_map.mp there
    obtain ⟨indexed, main⟩ := List.mem_filter.mp indexed
    have place := nodeId_injective same
    obtain rfl : j = k := by simpa using place
    have found := List.mk_mem_zipIdx_iff_getElem?.mp indexed
    rw [here] at found
    cases found
    cases main
  have pair : (l.source, l.target) ∈ pairs (mainIds parts) := by
    rw [← h.path]
    exact List.mem_map_of_mem (List.mem_filter.mpr ⟨member, decide_eq_true plain⟩)
  obtain ⟨source, target⟩ := List.of_mem_zip pair
  exact ⟨fun same => off (same ▸ source), fun same => off (same ▸ List.mem_of_mem_tail target)⟩

theorem DrawnAs.links_to_handler (h : DrawnAs ds root parts parent d) {k : Nat} {e : Element}
    {container : Option Nat} (here : parts[k]? = some (.handler e container)) :
    (d.links.filter (·.target = nodeId (k + 1))).map Link.ends =
      (handlerLink? (.handler e container, k)).toList := by
  -- Plain links stay on the path, so what leads to a handler is among the other links.
  have others : d.links.filter (·.target = nodeId (k + 1)) =
      (d.links.filter (·.kind ≠ .plain)).filter (·.target = nodeId (k + 1)) := by
    rw [List.filter_filter]
    refine List.filter_congr fun l member => ?_
    by_cases plain : l.kind = .plain
    · simp [plain, (h.not_on_path here member plain).2]
    · simp [plain]
  have own : ∀ p, ∀ link ∈ handlerLink? p, link.2.1 = nodeId (p.2 + 1) := by
    intro p link found
    unfold handlerLink? at found
    split at found
    · split at found
      · cases found
      · cases found
        rfl
    · cases found
  have distinct : (parts.zipIdx.map fun p => nodeId (p.2 + 1)).Nodup := by
    have positions : parts.zipIdx.map (fun p => nodeId (p.2 + 1)) = nodeIds parts.length := by
      rw [nodeIds, List.range_eq_range', ← List.zipIdx_map_snd 0 parts, List.map_map]
      rfl
    rw [positions]
    exact nodup_nodeIds _
  have links := congrArg (List.filter fun e => e.2.1 = nodeId (k + 1)) h.asides
  rw [handlerLinks, filter_filterMap_target own distinct (List.mk_mem_zipIdx_iff_getElem?.mpr here),
    List.filter_map] at links
  rw [others]
  exact links

end

/-- Without the handlers of errors, the nodes are the elements in document order, each container
closed after what it holds, and the plain links join each node with the next. A handler has no plain
link, and one link to it: from its container, or from the first node for one of the root, if it is
not itself the first. -/
theorem drawOrchestration_single_path (ds : Declared) (o : Element) :
    let root := (o.child? "globalTry").getD o
    let parts := orchestrationParts root
    let d := drawOrchestration ds o
    let main := d.nodes.filter (·.activity ≠ "catchAll")
    d.nodes.map (fun n => (n.id, n.spec)) = parts.zipIdx.map (partLabel ds) ∧
    main.map Node.spec = (parts.filter fun p => !p.isAside).map (Part.spec ds) ∧
    (main.map (·.id)).Nodup ∧
    (d.links.filter (·.kind = .plain)).map (fun l => (l.source, l.target)) =
      pairs (main.map (·.id)) ∧
    ∀ n ∈ d.nodes, n.activity = "catchAll" → ∃ k e container,
      parts[k]? = some (.handler e container) ∧ n.id = nodeId (k + 1) ∧ n.spec = catchAllSpec ds e ∧
      Anchored root parts e container ∧ (∀ l ∈ d.links, l.source = n.id → l.kind ≠ .plain) ∧
      (d.links.filter (·.target = n.id)).map Link.ends = if k = 0 then []
        else [(nodeId (container.getD 0 + 1), n.id, .error, some "error")] := by
  intro root parts d main
  obtain ⟨parent, drawn⟩ := drawOrchestration_drawnAs ds o
  have distinct : d.ids.Nodup :=
    (drawOrchestration_sound ds o).perm.nodup_iff.mpr (nodup_nodeIds _)
  refine ⟨drawn.nodes, drawn.main_specs, distinct.sublist (List.filter_sublist.map _), ?_, ?_⟩
  · rw [drawn.main_ids]
    exact drawn.path
  · intro n member aside
    obtain ⟨k, e, container, here, id, spec⟩ := drawn.part_of_node member aside
    refine ⟨k, e, container, here, id, spec, drawn.anchored e container (List.mem_of_getElem? here), ?_, ?_⟩
    · intro l link source plain
      exact (drawn.not_on_path here link plain).1 (source.trans id)
    · rw [id, drawn.links_to_handler here, handlerLink?]
      split
      · rfl
      · rfl

end ExportDiff.Flow
