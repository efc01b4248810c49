/- The ids of a draft: each one handed out is placed once or still pending, and links keep to them. -/
import ExportDiff.Flow.Draft
import Mathlib.Data.List.Nodup
import Mathlib.Data.List.Range

namespace ExportDiff.Flow

theorem numbered_injective (stem : String) : Function.Injective fun n : Nat => stem ++ toString n := by
  intro m n same
  have digits : toString m = toString n := by
    simpa using same
  have chars := congrArg String.toList digits
  rw [Nat.toString_eq_repr, Nat.toString_eq_repr, Nat.toList_repr, Nat.toList_repr] at chars
  simpa using congrArg (fun cs => Nat.ofDigitChars 10 cs 0) chars

theorem nodeId_injective : Function.Injective nodeId := numbered_injective "node_"

theorem linkId_injective : Function.Injective linkId := numbered_injective "edge_"

def nodeIds (n : Nat) : List String := (List.range n).map fun k => nodeId (k + 1)

def linkIds (n : Nat) : List String := (List.range n).map fun k => linkId (k + 1)

theorem nodeIds_succ (n : Nat) : nodeIds (n + 1) = nodeIds n ++ [nodeId (n + 1)] := by
  simp [nodeIds, List.range_succ]

theorem linkIds_succ (n : Nat) : linkIds (n + 1) = linkIds n ++ [linkId (n + 1)] := by
  simp [linkIds, List.range_succ]

@[simp] theorem length_nodeIds (n : Nat) : (nodeIds n).length = n := by
  simp [nodeIds]

@[simp] theorem length_linkIds (n : Nat) : (linkIds n).length = n := by
  simp [linkIds]

theorem nodup_nodeIds (n : Nat) : (nodeIds n).Nodup :=
  List.Nodup.map (nodeId_injective.comp Nat.succ_injective) List.nodup_range

theorem nodup_linkIds (n : Nat) : (linkIds n).Nodup :=
  List.Nodup.map (linkId_injective.comp Nat.succ_injective) List.nodup_range

theorem mem_nodeIds {n : Nat} {id : String} :
    id ∈ nodeIds n ↔ ∃ k, 1 ≤ k ∧ k ≤ n ∧ id = nodeId k := by
  rw [nodeIds, List.mem_map]
  constructor
  · rintro ⟨k, member, rfl⟩
    exact ⟨k + 1, Nat.le_add_left 1 k, List.mem_range.mp member, rfl⟩
  · rintro ⟨k, positive, bound, rfl⟩
    exact ⟨k - 1, List.mem_range.mpr (by omega), by rw [Nat.sub_add_cancel positive]⟩

theorem nodeIds_subset {m n : Nat} (h : m ≤ n) : nodeIds m ⊆ nodeIds n := by
  intro id member
  obtain ⟨k, positive, bound, rfl⟩ := mem_nodeIds.mp member
  exact mem_nodeIds.mpr ⟨k, positive, Nat.le_trans bound h, rfl⟩

/-- What a node was made from. -/
def Node.spec (n : Node) : NodeSpec := ⟨n.kind, n.name, n.activity, n.icon, n.data⟩

/-- A link but for its id. -/
abbrev Ends := String × String × LinkKind × Option String

def Link.ends (l : Link) : Ends := (l.source, l.target, l.kind, l.label)

/-- Where each entry calls for one link at most, to an id of its own, that id has no other link. -/
theorem filter_filterMap_target {α : Type} {link? : α → Option Ends} {key : α → String}
    (own : ∀ a, ∀ e ∈ link? a, e.2.1 = key a) {xs : List α} (distinct : (xs.map key).Nodup) {a : α}
    (member : a ∈ xs) : (xs.filterMap link?).filter (fun e => e.2.1 = key a) = (link? a).toList := by
  have others : ∀ ys : List α, key a ∉ ys.map key →
      (ys.filterMap link?).filter (fun e => e.2.1 = key a) = [] := by
    intro ys absent
    rw [List.filter_eq_nil_iff]
    intro e found target
    obtain ⟨b, there, link⟩ := List.mem_filterMap.mp found
    rw [decide_eq_true_iff, own b e link] at target
    exact absent (target ▸ List.mem_map_of_mem there)
  obtain ⟨before, after, rfl⟩ := List.append_of_mem member
  rw [List.map_append, List.map_cons, List.nodup_append] at distinct
  obtain ⟨_, later, apart⟩ := distinct
  have left : key a ∉ before.map key := fun there => apart _ there _ List.mem_cons_self rfl
  have right : key a ∉ after.map key := (List.nodup_cons.mp later).1
  have here : (link? a).toList.filter (fun e => e.2.1 = key a) = (link? a).toList := by
    rw [List.filter_eq_self]
    intro e link
    exact decide_eq_true (own a e (Option.mem_toList.mp link))
  rw [List.filterMap_append, List.filter_append, others before left, List.nil_append,
    ← List.singleton_append, List.filterMap_append, List.filter_append, others after right,
    List.append_nil, List.filterMap_cons, List.filterMap_nil]
  cases link : link? a with
  | none => rfl
  | some e => rwa [link] at here

namespace Draft

variable {d d' : Draft} {pending : List String} {id source target : String} {spec : NodeSpec}
  {offset rows row : Coord}

def ids (d : Draft) : List String := d.nodes.map (·.id)

/-- An id that was handed out, placed or not. -/
def Known (d : Draft) (id : String) : Prop := id ∈ nodeIds d.nodeCount

theorem Known.mono (h : d.Known id) (more : d.nodeCount ≤ d'.nodeCount) : d'.Known id :=
  nodeIds_subset more h

def KnownFrom (d : Draft) (parent : Option String) : Prop := ∀ id ∈ parent, d.Known id

theorem knownFrom_none : d.KnownFrom none := by
  intro id member
  cases member

theorem knownFrom_some : d.KnownFrom (some id) ↔ d.Known id := by
  simp [KnownFrom]

theorem KnownFrom.getD {last : Option String} (h : d.KnownFrom last) (known : d.Known id) :
    d.Known (last.getD id) := by
  cases last with
  | none => exact known
  | some found => exact knownFrom_some.mp h

def linkFrom (d : Draft) (parent : Option String) (target : String) (kind : LinkKind)
    (label : Option String) : Draft :=
  match parent with
  | some p => d.link p target kind label
  | none => d

section
variable {parent : Option String} {kind : LinkKind} {label : Option String}

theorem nodeCount_linkFrom : (d.linkFrom parent target kind label).nodeCount = d.nodeCount := by
  cases parent with
  | none => rfl
  | some p => rfl

theorem nodes_linkFrom : (d.linkFrom parent target kind label).nodes = d.nodes := by
  cases parent with
  | none => rfl
  | some p => rfl

theorem links_linkFrom : (d.linkFrom parent target kind label).links =
    d.links ++ parent.toList.map fun p => ⟨linkId (d.linkCount + 1), p, target, kind, label⟩ := by
  cases parent with
  | none => exact (List.append_nil _).symm
  | some p => rfl

end

/-- Every id handed out is placed once, or is one of those that are still pending. -/
structure Sound (pending : List String) (d : Draft) : Prop where
  placed : (d.ids ++ pending).Perm (nodeIds d.nodeCount)
  numbered : d.links.map (·.id) = linkIds d.linkCount
  ends : ∀ l ∈ d.links, d.Known l.source ∧ d.Known l.target

theorem sound_start (grid : Grid) (row : Coord) : Sound [] (start grid row) :=
  ⟨.refl [], rfl, by simp [start]⟩

theorem Sound.known_of_placed (h : Sound pending d) (member : id ∈ d.ids) : d.Known id :=
  h.placed.subset (List.mem_append_left pending member)

theorem links_link {kind label} : (d.link source target kind label).links =
    d.links ++ [⟨linkId (d.linkCount + 1), source, target, kind, label⟩] := rfl

theorem ids_placeAs : (d.placeAs id spec offset rows).ids = d.ids ++ [id] := by
  simp [ids, placeAs, advance]

theorem known_newNodeId : d.newNodeId.2.Known d.newNodeId.1 :=
  mem_nodeIds.mpr ⟨d.nodeCount + 1, Nat.le_add_left _ _, Nat.le_refl _, rfl⟩

theorem known_place : (d.place spec offset rows).2.Known (d.place spec offset rows).1 :=
  known_newNodeId

/-- A new id is pending at first, and placed later on. -/
theorem placed_newNodeId (h : (d.ids ++ pending).Perm (nodeIds d.nodeCount)) :
    (d.newNodeId.2.ids ++ d.newNodeId.1 :: pending).Perm (nodeIds d.newNodeId.2.nodeCount) := by
  change (d.ids ++ nodeId (d.nodeCount + 1) :: pending).Perm (nodeIds (d.nodeCount + 1))
  rw [nodeIds_succ]
  have added : (nodeId (d.nodeCount + 1) :: (d.ids ++ pending)).Perm
      (nodeIds d.nodeCount ++ [nodeId (d.nodeCount + 1)]) :=
    (h.cons _).trans (List.perm_append_singleton _ _).symm
  exact List.perm_middle.trans added

theorem placed_placeAs (h : (d.ids ++ id :: pending).Perm (nodeIds d.nodeCount)) :
    ((d.placeAs id spec offset rows).ids ++ pending).Perm (nodeIds d.nodeCount) := by
  rw [ids_placeAs, List.append_assoc, List.singleton_append]
  exact h

theorem Sound.newNodeId (h : Sound pending d) : Sound (d.newNodeId.1 :: pending) d.newNodeId.2 := by
  refine ⟨placed_newNodeId h.placed, h.numbered, ?_⟩
  intro l member
  obtain ⟨source, target⟩ := h.ends l member
  exact ⟨source.mono (Nat.le_succ _), target.mono (Nat.le_succ _)⟩

theorem Sound.placeAs (h : Sound (id :: pending) d) :
    Sound pending (d.placeAs id spec offset rows) :=
  ⟨placed_placeAs h.placed, h.numbered, h.ends⟩

theorem Sound.place (h : Sound pending d) : Sound pending (d.place spec offset rows).2 :=
  h.newNodeId.placeAs

/-- A link may mention ids that are still pending. -/
theorem Sound.link (h : Sound pending d) (from_known : d.Known source) (to_known : d.Known target)
    {kind label} : Sound pending (d.link source target kind label) := by
  refine ⟨h.placed, ?_, ?_⟩
  · change List.map Link.id (d.links ++ [_]) = linkIds (d.linkCount + 1)
    rw [List.map_append, h.numbered, linkIds_succ]
    rfl
  · intro l member
    obtain earlier | new := List.mem_append.mp member
    · exact h.ends l earlier
    · rw [List.mem_singleton.mp new]
      exact ⟨from_known, to_known⟩

/-- What every piece of a drawing does: it forgets no id and leaves what is pending to others. -/
structure Draws (pending : List String) (d d' : Draft) : Prop where
  more : d.nodeCount ≤ d'.nodeCount
  sound : Sound pending d'

theorem Draws.refl (h : Sound pending d) : Draws pending d d :=
  ⟨Nat.le_refl _, h⟩

theorem Draws.trans {pending' : List String} {d'' : Draft} (h : Draws pending d d')
    (h' : Draws pending' d' d'') : Draws pending' d d'' :=
  ⟨Nat.le_trans h.more h'.more, h'.sound⟩

theorem Draws.known (h : Draws pending d d') (known : d.Known id) : d'.Known id :=
  known.mono h.more

theorem Draws.knownFrom {parent : Option String} (h : Draws pending d d')
    (known : d.KnownFrom parent) : d'.KnownFrom parent := by
  intro id member
  exact h.known (known id member)

theorem Draws.place (h : Sound pending d) (spec : NodeSpec) (offset rows : Coord) :
    Draws pending d (d.place spec offset rows).2 :=
  ⟨Nat.le_succ _, h.place⟩

theorem Draws.link (h : Draws pending d d') (from_known : d'.Known source)
    (to_known : d'.Known target) (kind : LinkKind) (label : Option String) :
    Draws pending d (d'.link source target kind label) :=
  ⟨h.more, h.sound.link from_known to_known⟩

theorem place_linkFrom_draws {parent : Option String} (sound : Sound pending d)
    (known : d.KnownFrom parent) (spec : NodeSpec) (offset rows : Coord) (kind : LinkKind)
    (label : Option String) :
    let placed := d.place spec offset rows
    Draws pending d (placed.2.linkFrom parent placed.1 kind label) ∧
      (placed.2.linkFrom parent placed.1 kind label).Known placed.1 := by
  intro placed
  have alone : Draws pending d placed.2 := .place sound spec offset rows
  have placedId : placed.2.Known placed.1 := known_place
  cases parent with
  | none => exact ⟨alone, placedId⟩
  | some p => exact ⟨alone.link (alone.known (known p rfl)) placedId kind label, placedId⟩

theorem Sound.perm (h : Sound [] d) : d.ids.Perm (nodeIds d.nodeCount) := by
  have := h.placed
  rwa [List.append_nil] at this

theorem Sound.length_nodes (h : Sound [] d) : d.nodes.length = d.nodeCount := by
  have := h.perm.length_eq
  rwa [ids, List.length_map, length_nodeIds] at this

theorem Sound.length_links (h : Sound pending d) : d.links.length = d.linkCount := by
  have := congrArg List.length h.numbered
  rwa [List.length_map, length_linkIds] at this

end Draft

end ExportDiff.Flow
