/- A draft that is drawn call by call: whatever the order of the calls, ids that were handed out ahead and ids that
are taken on the spot never meet, and what was drawn stays. -/
import ExportDiff.Proofs.Flow.Draft

namespace ExportDiff.Flow
open Draft

/-- What can be asked of a draft. A node is placed under the id that is given for it, or else under a new one. -/
inductive Call where
  | newNodeId
  | newLinkId
  | currentRow
  | setRow (row : Coord)
  | advance (rows : Coord)
  | place (id : Option String) (spec : NodeSpec) (offset rows : Coord)
  | connect (source target : String) (kind : LinkKind) (label : Option String)

inductive Answer where
  | id (s : String)
  | row (r : Coord)
  | nothing

namespace Call

/-- The id that is given for a node; an empty one counts as none. -/
def givenId? : Call → Option String
  | .place id _ _ _ => id.filter (· ≠ "")
  | _ => none

/-- The call is answered by a new node id. -/
def takesNodeId : Call → Bool
  | .newNodeId => true
  | .place id _ _ _ => (id.filter (· ≠ "")).isNone
  | _ => false

/-- The id that a call hands out without a node. -/
def reservedId? : Call → Answer → Option String
  | .newNodeId, .id s => some s
  | _, _ => none

end Call

namespace Draft

def perform (d : Draft) : Call → Answer × Draft
  | .newNodeId => (.id d.newNodeId.1, d.newNodeId.2)
  | .newLinkId => (.id d.newLinkId.1, d.newLinkId.2)
  | .currentRow => (.row d.row, d)
  | .setRow row => (.nothing, d.setRow row)
  | .advance rows => (.nothing, d.advance rows)
  | .place id spec offset rows =>
      match id.filter (· ≠ "") with
      | some id => (.id id, d.placeAs id spec offset rows)
      | none => (.id (d.place spec offset rows).1, (d.place spec offset rows).2)
  | .connect source target kind label =>
      (.id (d.connect source target kind label).1, (d.connect source target kind label).2)

/-- The draft after calls that are made one after another. -/
def after (d : Draft) (calls : List Call) : Draft := calls.foldl (fun d c => (d.perform c).2) d

/-- The ids that the calls hand out without a node. -/
def reserved (d : Draft) : List Call → List String
  | [] => []
  | c :: calls => (c.reservedId? (d.perform c).1).toList ++ (d.perform c).2.reserved calls

/-- Each id that is given for a node was handed out by an earlier call, and is given once. -/
structure GivesReserved (d : Draft) (calls : List Call) : Prop where
  reserved : ∀ i (h : i < calls.length), ∀ id ∈ calls[i].givenId?, id ∈ d.reserved (calls.take i)
  once : (calls.filterMap Call.givenId?).Nodup

/-- Every id handed out is placed once or still pending, and links have some of their ids, in order. -/
structure Held (pending : List String) (d : Draft) : Prop where
  placed : (d.ids ++ pending).Perm (nodeIds d.nodeCount)
  linked : (d.links.map (·.id)).Sublist (linkIds d.linkCount)

/-- What is pending after a call. -/
def pendingAfter (d : Draft) (pending : List String) (c : Call) : List String :=
  (c.reservedId? (d.perform c).1).toList ++ pending.diff c.givenId?.toList

section
variable {d : Draft} {pending : List String} {c : Call} {calls : List Call}

theorem held_start (grid : Grid) (row : Coord) : Held [] (start grid row) :=
  ⟨.refl [], List.Sublist.refl []⟩

/-- Nothing that stands in a draft is changed or dropped by a call. -/
theorem perform_extends (d : Draft) (c : Call) :
    d.nodes <+: (d.perform c).2.nodes ∧ d.links <+: (d.perform c).2.links := by
  cases c with
  | place id spec offset rows =>
      rw [perform]
      split
      · exact ⟨List.prefix_append _ _, List.prefix_rfl⟩
      · exact ⟨List.prefix_append _ _, List.prefix_rfl⟩
  | connect source target kind label => exact ⟨List.prefix_rfl, List.prefix_append _ _⟩
  | _ => exact ⟨List.prefix_rfl, List.prefix_rfl⟩

theorem after_extends (d : Draft) (calls : List Call) :
    d.nodes <+: (d.after calls).nodes ∧ d.links <+: (d.after calls).links := by
  induction calls generalizing d with
  | nil => exact ⟨List.prefix_rfl, List.prefix_rfl⟩
  | cons c calls ih =>
      obtain ⟨nodes, links⟩ := d.perform_extends c
      obtain ⟨nodes', links'⟩ := ih (d.perform c).2
      exact ⟨nodes.trans nodes', links.trans links'⟩

theorem nodeCount_perform (d : Draft) (c : Call) :
    (d.perform c).2.nodeCount = d.nodeCount + [c].countP Call.takesNodeId := by
  cases c with
  | place id spec offset rows =>
      rw [perform, List.countP_singleton, Call.takesNodeId]
      cases id.filter (· ≠ "") with
      | some id => rfl
      | none => rfl
  | _ => rfl

theorem nodeCount_after (d : Draft) (calls : List Call) :
    (d.after calls).nodeCount = d.nodeCount + calls.countP Call.takesNodeId := by
  induction calls generalizing d with
  | nil => rfl
  | cons c calls ih =>
      rw [after, List.foldl_cons, ← after, ih, nodeCount_perform, Nat.add_assoc, ← List.countP_append,
        List.singleton_append]

/-- One call keeps count of the ids. -/
theorem Held.perform (h : Held pending d) (given : ∀ id ∈ c.givenId?, id ∈ pending) :
    Held (d.pendingAfter pending c) (d.perform c).2 := by
  cases c with
  | newNodeId => exact ⟨placed_newNodeId h.placed, h.linked⟩
  | newLinkId =>
      refine ⟨h.placed, h.linked.trans ?_⟩
      change List.Sublist _ (linkIds (d.linkCount + 1))
      rw [linkIds_succ]
      exact List.sublist_append_left _ _
  | place id spec offset rows =>
      rw [Call.givenId?] at given
      rw [pendingAfter, Draft.perform, Call.givenId?]
      cases same : id.filter (· ≠ "") with
      | some id =>
          have member : id ∈ pending := given id same
          have apart : (d.ids ++ id :: pending.erase id).Perm (nodeIds d.nodeCount) :=
            ((List.perm_cons_erase member).symm.append_left d.ids).trans h.placed
          rw [Option.toList_some, List.diff_cons, List.diff_nil]
          exact ⟨placed_placeAs apart, h.linked⟩
      | none => exact ⟨placed_placeAs (placed_newNodeId h.placed), h.linked⟩
  | connect source target kind label =>
      refine ⟨h.placed, ?_⟩
      change List.Sublist (List.map Link.id (d.links ++ [_])) (linkIds (d.linkCount + 1))
      rw [List.map_append, linkIds_succ]
      exact h.linked.append (.refl _)
  | _ => exact ⟨h.placed, h.linked⟩

/-- Each id that is given for a node is pending, or was handed out by an earlier call, and it is given once. -/
structure GivesHeld (pending : List String) (d : Draft) (calls : List Call) : Prop where
  known : ∀ i (h : i < calls.length), ∀ id ∈ calls[i].givenId?, id ∈ pending ∨ id ∈ d.reserved (calls.take i)
  once : (calls.filterMap Call.givenId?).Nodup

theorem GivesHeld.head (h : GivesHeld pending d (c :: calls)) : ∀ id ∈ c.givenId?, id ∈ pending := by
  intro id member
  exact (h.known 0 (Nat.zero_lt_succ _) id member).resolve_right List.not_mem_nil

theorem GivesHeld.tail (h : GivesHeld pending d (c :: calls)) :
    GivesHeld (d.pendingAfter pending c) (d.perform c).2 calls := by
  have once := h.once
  rw [← List.singleton_append, List.filterMap_append, List.nodup_append] at once
  obtain ⟨_, later, apart⟩ := once
  refine ⟨?_, later⟩
  intro i bound id given
  have known := h.known (i + 1) (Nat.succ_lt_succ bound) id given
  rw [List.take_succ_cons, reserved, List.mem_append] at known
  rw [pendingAfter, List.mem_append]
  rcases known with before | now | later
  · -- It is still pending, as it is not the one that is given now.
    refine .inl (.inr (List.mem_diff_of_mem before fun here => ?_))
    have given' : id ∈ [c].filterMap Call.givenId? :=
      List.mem_filterMap.mpr ⟨c, List.mem_singleton_self c, Option.mem_toList.mp here⟩
    have again : id ∈ calls.filterMap Call.givenId? :=
      List.mem_filterMap.mpr ⟨calls[i], List.getElem_mem bound, given⟩
    exact apart id given' id again rfl
  · exact .inl (.inl now)
  · exact .inr later

theorem Held.after (h : Held pending d) (gives : GivesHeld pending d calls) :
    ∃ left, Held left (d.after calls) := by
  induction calls generalizing d pending with
  | nil => exact ⟨pending, h⟩
  | cons c calls ih => exact ih (h.perform gives.head) gives.tail

theorem GivesReserved.held (h : GivesReserved d calls) : GivesHeld [] d calls :=
  ⟨fun i bound id given => .inr (h.reserved i bound id given), h.once⟩

theorem GivesReserved.of_prefix {soFar : List Call} (h : GivesReserved d calls) (first : soFar <+: calls) :
    GivesReserved d soFar := by
  obtain ⟨later, rfl⟩ := first
  constructor
  · intro i bound id given
    have known := h.reserved i (by rw [List.length_append]; omega) id
    rw [List.getElem_append_left bound, List.take_append_of_le_length (Nat.le_of_lt bound)] at known
    exact known given
  · have once := h.once
    rw [List.filterMap_append] at once
    exact once.of_append_left

end

/-- Whatever calls are made of a new draft, if each id that is given for a node was handed out before and is given
once: at every moment the ids of the nodes are distinct and among the first ones, as many as were handed out so far,
the links are numbered upwards, and the nodes and links that are there are the first ones of the draft at the end. -/
theorem calls_number_apart (grid : Grid) (row : Coord) {calls : List Call}
    (gives : (start grid row).GivesReserved calls) (metadata : Metadata) (soFar : List Call)
    (first : soFar <+: calls) :
    let now := ((start grid row).after soFar).finish metadata
    let later := ((start grid row).after calls).finish metadata
    (now.nodes.map (·.id)).Nodup ∧
    (∀ n ∈ now.nodes, ∃ k, 1 ≤ k ∧ k ≤ soFar.countP Call.takesNodeId ∧ n.id = nodeId k) ∧
    (∃ numbers : List Nat, numbers.Pairwise (· < ·) ∧ now.links.map (·.id) = numbers.map linkId) ∧
    (now.links.map (·.id)).Nodup ∧
    now.nodes <+: later.nodes ∧ now.links <+: later.links := by
  intro now later
  obtain ⟨left, held⟩ := (held_start grid row).after (gives.of_prefix first).held
  have distinct := held.placed.nodup_iff.mpr (nodup_nodeIds _)
  refine ⟨distinct.of_append_left, ?_, ?_, held.linked.nodup (nodup_linkIds _), ?_⟩
  · intro n member
    have known := held.placed.subset (List.mem_append_left left (List.mem_map_of_mem member))
    obtain ⟨k, positive, bound, same⟩ := mem_nodeIds.mp known
    rw [nodeCount_after] at bound
    exact ⟨k, positive, Nat.le_trans bound (Nat.le_of_eq (Nat.zero_add _)), same⟩
  · obtain ⟨places, kept, same⟩ := List.sublist_map_iff.mp held.linked
    refine ⟨places.map Nat.succ, ?_, ?_⟩
    · rw [List.pairwise_map]
      exact (List.pairwise_lt_range.sublist kept).imp Nat.succ_lt_succ
    · rw [List.map_map]
      exact same
  · obtain ⟨rest, rfl⟩ := first
    have split : (start grid row).after (soFar ++ rest) = ((start grid row).after soFar).after rest :=
      List.foldl_append
    have extends' := after_extends ((start grid row).after soFar) rest
    rw [← split] at extends'
    exact extends'

/-- A join whose id is taken before the step above it is drawn. -/
def joinCalls : List Call :=
  [.newNodeId, .place none ⟨.action, "Assign", "assign", none, []⟩ (.ofInt 0) oneRow, .newLinkId,
    .place (some "node_1") ⟨.action, "Join", "flowEnd", none, []⟩ (.ofInt 0) oneRow,
    .connect "node_2" "node_1" .plain none]

theorem calls_number_apart_join :
    (start ⟨.ofInt 400, .ofInt 100, .exact⟩ firstRow).GivesReserved joinCalls ∧
    ((start ⟨.ofInt 400, .ofInt 100, .exact⟩ firstRow).after joinCalls).ids = ["node_2", "node_1"] ∧
    ((start ⟨.ofInt 400, .ofInt 100, .exact⟩ firstRow).after joinCalls).links.map (·.id) = ["edge_2"] ∧
    ((start ⟨.ofInt 400, .ofInt 100, .exact⟩ firstRow).after joinCalls).ids.Nodup := by
  have gives : (start ⟨.ofInt 400, .ofInt 100, .exact⟩ firstRow).GivesReserved joinCalls :=
    ⟨by decide, by decide⟩
  have apart := calls_number_apart _ _ gives ⟨"Orders", none, none⟩ joinCalls List.prefix_rfl
  exact ⟨gives, by decide, by decide, apart.1⟩

end Draft

end ExportDiff.Flow
