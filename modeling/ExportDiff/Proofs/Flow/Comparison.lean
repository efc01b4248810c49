/- Comparing flows: each node is paired with the last one of its name on the other side. -/
import ExportDiff.Flow.Comparison
import ExportDiff.Proofs.Flow.WellFormed
import ExportDiff.Proofs.Xml.Document

namespace ExportDiff.Flow
open Text Xml

section
variable {f other : Flow} {key name : String} {n m : Node}

theorem putNamed_new {α : Type} {entries : List (String × α)} (v : α)
    (new : key ∉ entries.map Prod.fst) : putNamed key v entries = entries ++ [(key, v)] := by
  induction entries with
  | nil => rfl
  | cons entry rest ih =>
      obtain ⟨k, w⟩ := entry
      rw [List.map_cons, List.mem_cons, not_or] at new
      rw [putNamed, if_neg fun same => new.1 same.symm, ih new.2, List.cons_append]

theorem statuses_eq (distinct : (f.nodes.map (·.id)).Nodup) (missing : Status) :
    statuses f other missing =
      f.nodes.map fun n => (n.id, statusOf n (namesake? other n.name) missing) := by
  -- What is done already has other ids, so that no status is overwritten.
  have fold : ∀ (nodes : List Node) (done : List (String × Status)),
      (done.map Prod.fst ++ nodes.map (·.id)).Nodup →
        nodes.foldl (fun done n =>
          putNamed n.id (statusOf n (namesake? other n.name) missing) done) done =
          done ++ nodes.map fun n => (n.id, statusOf n (namesake? other n.name) missing) := by
    intro nodes
    induction nodes with
    | nil => simp
    | cons n rest ih =>
        intro done apart
        have new : n.id ∉ done.map Prod.fst := by
          intro there
          exact (List.nodup_append.mp apart).2.2 _ there _ List.mem_cons_self rfl
        rw [List.foldl_cons, putNamed_new _ new, ih, List.append_assoc]
        · rfl
        · rw [List.map_append, List.append_assoc]
          exact apart
  exact fold f.nodes [] distinct

/-- A node that is the last one of its name, in any case. -/
structure LastNamed (f : Flow) (name : String) (m : Node) : Prop where
  named : lowercase m.name = lowercase name
  last : ∃ before after, f.nodes = before ++ m :: after ∧ ∀ k ∈ after, lowercase k.name ≠ lowercase name

theorem namesake?_eq_some : namesake? f name = some m ↔ LastNamed f name m := by
  rw [namesake?, List.find?_eq_some_iff_append, decide_eq_true_iff]
  constructor
  · rintro ⟨named, after, before, split, none⟩
    refine ⟨named, before.reverse, after.reverse, ?_, ?_⟩
    · rw [← List.reverse_reverse f.nodes, split]
      simp
    · intro k later
      simpa using none k (List.mem_reverse.mp later)
  · rintro ⟨named, before, after, split, none⟩
    refine ⟨named, after.reverse, before.reverse, ?_, ?_⟩
    · rw [split]
      simp
    · intro k later
      simpa using none k (List.mem_reverse.mp later)

theorem namesake?_of_mem (member : n ∈ f.nodes) : ∃ m, namesake? f n.name = some m := by
  rw [← Option.isSome_iff_exists, namesake?, List.find?_isSome]
  exact ⟨n, List.mem_reverse.mpr member, decide_eq_true rfl⟩

theorem LastNamed.mem (h : LastNamed f name m) : m ∈ f.nodes := by
  obtain ⟨before, after, split, _⟩ := h.last
  rw [split]
  exact List.mem_append_right before List.mem_cons_self

theorem LastNamed.congr (h : LastNamed f n.name m) (same : lowercase n.name = lowercase name) :
    LastNamed f name m := by
  rw [← namesake?_eq_some, namesake?] at h ⊢
  rwa [← same]

theorem LastNamed.unique {m' : Node} (h : LastNamed f name m) (h' : LastNamed f name m') : m = m' := by
  rw [← namesake?_eq_some] at h h'
  exact Option.some.inj (h.symm.trans h')

theorem sameNode_iff :
    sameNode n m ↔ n.activity = m.activity ∧ n.kind = m.kind ∧ dataText n = dataText m := by
  simp [sameNode, and_assoc]

theorem sameNode_trans {k : Node} (h : sameNode n m) (h' : sameNode k m) : sameNode n k := by
  rw [sameNode_iff] at h h' ⊢
  exact ⟨h.1.trans h'.1.symm, h.2.1.trans h'.2.1.symm, h.2.2.trans h'.2.2.symm⟩

theorem statusOf_self (member : n ∈ f.nodes) (missing : Status) :
    ∃ m, LastNamed f n.name m ∧
      statusOf n (namesake? f n.name) missing = if sameNode n m then .unchanged else .modified := by
  obtain ⟨m, found⟩ := namesake?_of_mem member
  refine ⟨m, namesake?_eq_some.mp found, ?_⟩
  rw [found]
  rfl

end

def selfComparison (f : Flow) : Comparison := compareFlows (some f) (some f)

section
variable {f : Flow}

theorem selfComparison_sides (wf : f.WellFormed) : (selfComparison f).right = (selfComparison f).left := by
  change statuses f f .added = statuses f f .removed
  rw [statuses_eq wf.distinct, statuses_eq wf.distinct]
  refine List.map_congr_left fun n member => ?_
  obtain ⟨m, last, status⟩ := statusOf_self member .added
  obtain ⟨m', last', status'⟩ := statusOf_self member .removed
  rw [status, status', last.unique last']

theorem selfComparison_ids (wf : f.WellFormed) :
    (selfComparison f).left.map Prod.fst = f.nodes.map (·.id) := by
  change (statuses f f .removed).map Prod.fst = _
  rw [statuses_eq wf.distinct, List.map_map]
  rfl

theorem mem_selfComparison (wf : f.WellFormed) {p : String × Status} :
    p ∈ (selfComparison f).left ↔ ∃ n ∈ f.nodes, ∃ m, LastNamed f n.name m ∧
      p = (n.id, if sameNode n m then .unchanged else .modified) := by
  change p ∈ statuses f f .removed ↔ _
  rw [statuses_eq wf.distinct, List.mem_map]
  constructor
  · rintro ⟨n, member, rfl⟩
    obtain ⟨m, last, status⟩ := statusOf_self member .removed
    exact ⟨n, member, m, last, by rw [status]⟩
  · rintro ⟨n, member, m, last, rfl⟩
    obtain ⟨m', last', status⟩ := statusOf_self member .removed
    exact ⟨n, member, by rw [status, last.unique last']⟩

theorem selfComparison_unchanged_iff (wf : f.WellFormed) :
    (∀ p ∈ (selfComparison f).left, p.2 = .unchanged) ↔
      ∀ m ∈ f.nodes, ∀ n ∈ f.nodes, lowercase m.name = lowercase n.name → sameNode m n := by
  constructor
  · intro unchanged
    have like_last {k : Node} (member : k ∈ f.nodes) : ∃ last, LastNamed f k.name last ∧ sameNode k last := by
      obtain ⟨last, named, _⟩ := statusOf_self member .removed
      refine ⟨last, named, ?_⟩
      have status := unchanged _ ((mem_selfComparison wf).mpr ⟨k, member, last, named, rfl⟩)
      by_contra different
      rw [if_neg different] at status
      cases status
    -- Two nodes of one name have the same last one, so each is like the other.
    intro m there n here same
    obtain ⟨last, named, like⟩ := like_last there
    obtain ⟨last', named', like'⟩ := like_last here
    rw [(named.congr same).unique named'] at like
    exact sameNode_trans like like'
  · intro alike p member
    obtain ⟨n, here, m, last, rfl⟩ := (mem_selfComparison wf).mp member
    exact if_pos (alike n here m last.mem last.named.symm)

end

/-- A flow compared with itself has the same changes on both sides, and nothing is added or removed. A
node is unchanged if it is the same as the last one of its name, in any case; so all are unchanged if
and only if nodes of one name are the same. -/
theorem selfComparison_parseFlow (xml : String) :
    (selfComparison (parseFlow xml)).right = (selfComparison (parseFlow xml)).left ∧
    (selfComparison (parseFlow xml)).left.map Prod.fst = (parseFlow xml).nodes.map (·.id) ∧
    (∀ n ∈ (parseFlow xml).nodes, ∃ m, LastNamed (parseFlow xml) n.name m ∧
      (n.id, if sameNode n m then .unchanged else .modified) ∈ (selfComparison (parseFlow xml)).left) ∧
    ((∀ p ∈ (selfComparison (parseFlow xml)).left, p.2 = .unchanged) ↔
      ∀ m ∈ (parseFlow xml).nodes, ∀ n ∈ (parseFlow xml).nodes,
        lowercase m.name = lowercase n.name → sameNode m n) := by
  have wf : (parseFlow xml).WellFormed := parse_wellFormed xml
  refine ⟨selfComparison_sides wf, selfComparison_ids wf, ?_, selfComparison_unchanged_iff wf⟩
  intro n member
  obtain ⟨m, last, _⟩ := statusOf_self member .removed
  exact ⟨m, last, (mem_selfComparison wf).mpr ⟨n, member, m, last, rfl⟩⟩

def twoAssigns : String := "<process><assign><copy/></assign><assign/></process>"

/-- Two assigns without names share that of their kind, but only one has a copy: the first is paired
with the second. -/
theorem selfComparison_twoAssigns :
    selfComparison (parseFlow twoAssigns) =
      ⟨[("node_1", .modified), ("node_2", .unchanged)],
       [("node_1", .modified), ("node_2", .unchanged)]⟩ := by
  have text := read_tag twoAssigns (c := 'p') rfl (by decide) (by decide)
    (by decide +kernel) (by decide +kernel)
  rw [parseFlow, parse, text]
  decide +kernel

end ExportDiff.Flow
