/- Comparing flows whose nodes have names of their own: the nodes pair up, and both sides count the same
pairs. -/
import ExportDiff.Proofs.Change.Recount
import ExportDiff.Proofs.Flow.Status

namespace ExportDiff.Flow
open Text

/-- Every node has an id of its own and, in any case, a name of its own. -/
structure Distinct (f : Flow) : Prop where
  ids : (f.nodes.map (·.id)).Nodup
  names : (f.nodes.map fun n => lowercase n.name).Nodup

/-- Nodes of two flows that have one name, in any case. -/
structure Partners (l r : Flow) (n m : Node) : Prop where
  left : n ∈ l.nodes
  right : m ∈ r.nodes
  name : lowercase n.name = lowercase m.name

/-- What the status says when the sides are exchanged. -/
def Status.mirror : Status → Status
  | .added => .removed
  | .removed => .added
  | .modified => .modified
  | .unchanged => .unchanged

def mirrored (changes : List (String × Status)) : List (String × Status) := changes.map fun (id, s) => (id, s.mirror)

def Comparison.mirror (c : Comparison) : Comparison := ⟨mirrored c.right, mirrored c.left⟩

/-- Every node has one partner at most, whose status is its own; the others are on one side only. So both sides
count the same pairs, and the rest of their nodes is removed or added. -/
structure PairsUp (l r : Flow) (c : Comparison) : Prop where
  oneRight : ∀ {n m m'}, Partners l r n m → Partners l r n m' → m = m'
  oneLeft : ∀ {n n' m}, Partners l r n m → Partners l r n' m → n = n'
  status : ∀ {n m}, Partners l r n m → ∀ s, (n.id, s) ∈ c.left ↔ (m.id, s) ∈ c.right
  paired : ∀ {n m}, Partners l r n m → (n.id, .unchanged) ∈ c.left ∨ (n.id, .modified) ∈ c.left
  onlyLeft : ∀ n ∈ l.nodes, (∀ m, ¬ Partners l r n m) → (n.id, .removed) ∈ c.left
  onlyRight : ∀ m ∈ r.nodes, (∀ n, ¬ Partners l r n m) → (m.id, .added) ∈ c.right
  unchanged : tally c.left .unchanged = tally c.right .unchanged
  modified : tally c.left .modified = tally c.right .modified
  noneAdded : tally c.left .added = 0
  noneRemoved : tally c.right .removed = 0
  allLeft : tally c.left .removed + tally c.left .unchanged + tally c.left .modified = l.nodes.length
  allRight : tally c.right .added + tally c.right .unchanged + tally c.right .modified = r.nodes.length

section
variable {f other l r : Flow} {n m : Node} {s missing : Status}

theorem Partners.symm (h : Partners l r n m) : Partners r l m n := ⟨h.right, h.left, h.name.symm⟩

theorem Partners.unique {m' : Node} (hr : Distinct r) (h : Partners l r n m) (h' : Partners l r n m') : m = m' :=
  List.inj_on_of_nodup_map hr.names h.right h'.right (h.name.symm.trans h'.name)

theorem sameNode_comm (n m : Node) : sameNode n m = sameNode m n := by
  rw [Bool.eq_iff_iff, sameNode_iff, sameNode_iff]
  exact ⟨fun h => ⟨h.1.symm, h.2.1.symm, h.2.2.symm⟩, fun h => ⟨h.1.symm, h.2.1.symm, h.2.2.symm⟩⟩

theorem namesake?_of_partners (hr : Distinct r) (h : Partners l r n m) : namesake? r n.name = some m := by
  obtain ⟨k, found⟩ := namesake?_of_mem h.right
  have last := (namesake?_eq_some.mp found).congr h.name.symm
  have same : m = k := h.unique hr ⟨h.left, last.mem, last.named.symm⟩
  rw [namesake?_eq_some, same]
  exact last

theorem statusOf_partners (hr : Distinct r) (h : Partners l r n m) (missing : Status) :
    statusOf n (namesake? r n.name) missing = if sameNode n m then .unchanged else .modified := by
  rw [namesake?_of_partners hr h]
  rfl

theorem mem_statuses_partners (hl : Distinct l) (hr : Distinct r) (h : Partners l r n m) (missing : Status) :
    (n.id, s) ∈ statuses l r missing ↔ (if sameNode n m then .unchanged else .modified) = s := by
  rw [mem_statuses hl.ids h.left, statusOf_partners hr h]

theorem statusOf_alone (member : n ∈ l.nodes) (alone : ∀ m, ¬ Partners l r n m) (missing : Status) :
    statusOf n (namesake? r n.name) missing = missing := by
  have none : namesake? r n.name = none :=
    namesake?_eq_none.mpr fun m there same => alone m ⟨member, there, same.symm⟩
  rw [none]
  rfl

/-- A node that is not missing on the other side has a partner there, of the same status. -/
theorem exists_partner (hl : Distinct l) (hr : Distinct r) (member : n ∈ l.nodes)
    (status : statusOf n (namesake? r n.name) missing = s) (there : s ≠ missing) (missing' : Status) :
    ∃ m, Partners l r n m ∧ statusOf m (namesake? l m.name) missing' = s := by
  by_cases alone : ∀ m, ¬ Partners l r n m
  · exact absurd (status.symm.trans (statusOf_alone member alone missing)) there
  · obtain ⟨m, partners⟩ := not_forall_not.mp alone
    refine ⟨m, partners, ?_⟩
    rw [← status, statusOf_partners hr partners, statusOf_partners hl partners.symm, sameNode_comm]

theorem tally_statuses (ids : (f.nodes.map (·.id)).Nodup) (s : Status) :
    tally (statuses f other missing) s =
      f.nodes.countP fun n => statusOf n (namesake? other n.name) missing = s := by
  rw [tally, statuses_eq ids, List.filter_map, List.length_map, List.countP_eq_length_filter]
  rfl

/-- Things told apart by a key are no more than those that each of their keys is found among. -/
theorem countP_le_of_key {α β : Type} (key : α → β) {p q : α → Bool} {xs ys : List α} (distinct : (xs.map key).Nodup)
    (found : ∀ x ∈ xs, p x = true → ∃ y ∈ ys, q y = true ∧ key y = key x) : xs.countP p ≤ ys.countP q := by
  have apart : ((xs.filter p).map key).Nodup := distinct.sublist (List.filter_sublist.map key)
  have among : (xs.filter p).map key ⊆ (ys.filter q).map key := by
    intro k member
    obtain ⟨x, hx, rfl⟩ := List.mem_map.mp member
    obtain ⟨there, holds⟩ := List.mem_filter.mp hx
    obtain ⟨y, hy, holds', same⟩ := found x there holds
    exact List.mem_map.mpr ⟨y, List.mem_filter.mpr ⟨hy, holds'⟩, same⟩
  have fewer := (List.subperm_of_subset apart among).length_le
  rwa [List.length_map, List.length_map, ← List.countP_eq_length_filter, ← List.countP_eq_length_filter] at fewer

/-- Of a status that needs a partner, a side counts no more nodes than the other one. -/
theorem tally_le (hl : Distinct l) (hr : Distinct r) (there : s ≠ missing) (missing' : Status) :
    tally (statuses l r missing) s ≤ tally (statuses r l missing') s := by
  rw [tally_statuses hl.ids, tally_statuses hr.ids]
  refine countP_le_of_key (fun n : Node => lowercase n.name) hl.names ?_
  intro n member status
  rw [decide_eq_true_iff] at status
  obtain ⟨m, partners, same⟩ := exists_partner hl hr member status there missing'
  exact ⟨m, partners.right, decide_eq_true same, partners.name.symm⟩

theorem tally_eq (hl : Distinct l) (hr : Distinct r) (there : s ≠ .removed) (there' : s ≠ .added) :
    tally (statuses l r .removed) s = tally (statuses r l .added) s :=
  Nat.le_antisymm (tally_le hl hr there .added) (tally_le hr hl there' .removed)

theorem statusOf_cases (n : Node) (namesake : Option Node) (missing : Status) :
    statusOf n namesake missing ∈ [missing, .unchanged, .modified] := by
  cases namesake with
  | none => exact List.mem_cons_self
  | some m =>
      rw [statusOf]
      split <;> simp

theorem tally_eq_zero (ids : (f.nodes.map (·.id)).Nodup) (never : s ∉ [missing, .unchanged, .modified]) :
    tally (statuses f other missing) s = 0 := by
  rw [tally_statuses ids, List.countP_eq_zero]
  intro n _ status
  rw [decide_eq_true_iff] at status
  exact never (status ▸ statusOf_cases n _ missing)

theorem tally_total (ids : (f.nodes.map (·.id)).Nodup) (other : Flow) (missing : Status) :
    (Status.all.map fun s => tally (statuses f other missing) s).sum = f.nodes.length := by
  have once : ∀ s, Status.all.count s = 1 := by
    intro s
    cases s <;> rfl
  simp only [tally_statuses ids]
  exact Change.sum_countP (fun n => statusOf n (namesake? other n.name) missing) once f.nodes

theorem statuses_mirror (ids : (f.nodes.map (·.id)).Nodup) (other : Flow) (missing : Status) :
    statuses f other missing.mirror = mirrored (statuses f other missing) := by
  have mirror (n : Node) (namesake : Option Node) :
      statusOf n namesake missing.mirror = (statusOf n namesake missing).mirror := by
    cases namesake with
    | none => rfl
    | some m =>
        rw [statusOf, statusOf]
        split <;> rfl
  rw [statuses_eq ids, statuses_eq ids, mirrored, List.map_map]
  refine List.map_congr_left fun n _ => ?_
  rw [mirror]
  rfl

theorem compareFlows_mirror (hl : Distinct l) (hr : Distinct r) :
    compareFlows (some r) (some l) = (compareFlows (some l) (some r)).mirror :=
  congrArg₂ Comparison.mk (statuses_mirror hr.ids l .added) (statuses_mirror hl.ids r .removed)

end

/-- Flows whose nodes have names of their own pair up, and compared the other way round they give the same
comparison from the other side. -/
theorem compareFlows_pairsUp (l r : Flow) (hl : Distinct l) (hr : Distinct r) :
    PairsUp l r (compareFlows (some l) (some r)) ∧
      compareFlows (some r) (some l) = (compareFlows (some l) (some r)).mirror := by
  have noneAdded : tally (statuses l r .removed) .added = 0 := tally_eq_zero hl.ids (by decide)
  have noneRemoved : tally (statuses r l .added) .removed = 0 := tally_eq_zero hr.ids (by decide)
  have totalLeft := tally_total hl.ids r .removed
  have totalRight := tally_total hr.ids l .added
  simp only [Status.all, List.map_cons, List.map_nil, List.sum_cons, List.sum_nil] at totalLeft totalRight
  refine ⟨?_, compareFlows_mirror hl hr⟩
  constructor
  case oneRight => exact fun h h' => h.unique hr h'
  case oneLeft => exact fun h h' => h.symm.unique hl h'.symm
  case status =>
    intro n m h s
    change (n.id, s) ∈ statuses l r .removed ↔ (m.id, s) ∈ statuses r l .added
    rw [mem_statuses_partners hl hr h, mem_statuses_partners hr hl h.symm, sameNode_comm]
  case paired =>
    intro n m h
    change (n.id, .unchanged) ∈ statuses l r .removed ∨ (n.id, .modified) ∈ statuses l r .removed
    rw [mem_statuses_partners hl hr h, mem_statuses_partners hl hr h]
    cases sameNode n m
    · exact .inr rfl
    · exact .inl rfl
  case onlyLeft =>
    intro n member alone
    exact (mem_statuses hl.ids member).mpr (statusOf_alone member alone .removed)
  case onlyRight =>
    intro m member alone
    exact (mem_statuses hr.ids member).mpr (statusOf_alone member (fun n h => alone n h.symm) .added)
  case unchanged => exact tally_eq hl hr (by decide) (by decide)
  case modified => exact tally_eq hl hr (by decide) (by decide)
  case noneAdded => exact noneAdded
  case noneRemoved => exact noneRemoved
  case allLeft =>
    change tally (statuses l r .removed) .removed + tally (statuses l r .removed) .unchanged +
      tally (statuses l r .removed) .modified = l.nodes.length
    omega
  case allRight =>
    change tally (statuses r l .added) .added + tally (statuses r l .added) .unchanged +
      tally (statuses r l .added) .modified = r.nodes.length
    omega

def stepsLater : Flow :=
  ⟨[actionNode "u" "Stop" [], actionNode "v" "SEND" [("size", .int 2)],
    actionNode "w" "map" [("size", .int 1), ("open", .bool true)]], [], ⟨"Steps", none, none⟩⟩

/-- The map is the same in other letters, the sending was changed, the log was removed and the stop added. -/
theorem compareFlows_pairsUp_steps :
    Distinct stepsBefore ∧ Distinct stepsLater ∧
      PairsUp stepsBefore stepsLater (compareFlows (some stepsBefore) (some stepsLater)) ∧
      compareFlows (some stepsLater) (some stepsBefore) =
        (compareFlows (some stepsBefore) (some stepsLater)).mirror ∧
      compareFlows (some stepsBefore) (some stepsLater) =
        ⟨[("a", .unchanged), ("b", .modified), ("c", .removed)],
         [("u", .added), ("v", .modified), ("w", .unchanged)]⟩ := by
  have before : Distinct stepsBefore := ⟨by decide, by decide⟩
  have later : Distinct stepsLater := ⟨by decide, by decide⟩
  obtain ⟨pairs, mirror⟩ := compareFlows_pairsUp _ _ before later
  exact ⟨before, later, pairs, mirror, by decide⟩

end ExportDiff.Flow
