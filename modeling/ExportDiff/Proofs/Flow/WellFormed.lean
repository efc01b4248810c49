/- Flows are well-formed graphs, in either form. -/
import ExportDiff.Flow.Parsed
import ExportDiff.Proofs.Flow.ProcessLayout
import ExportDiff.Proofs.Flow.ProjectLayout

namespace ExportDiff.Flow
open Draft Xml

/-- Node ids are the first ones, each once; links are numbered in order and lead from node to node. -/
structure WellFormed (f : Flow) : Prop where
  distinct : (f.nodes.map (·.id)).Nodup
  numbered : ∀ id, id ∈ f.nodes.map (·.id) ↔ ∃ k, 1 ≤ k ∧ k ≤ f.nodes.length ∧ id = nodeId k
  linkNumbers : f.links.map (·.id) = linkIds f.links.length
  ends : ∀ l ∈ f.links, l.source ∈ f.nodes.map (·.id) ∧ l.target ∈ f.nodes.map (·.id)

theorem empty_wellFormed (processName : String) : (empty processName).WellFormed where
  distinct := List.nodup_nil
  numbered := by
    intro id
    rw [← mem_nodeIds]
    rfl
  linkNumbers := rfl
  ends := by
    intro l member
    cases member

theorem finish_wellFormed {d : Draft} (sound : Sound [] d) (metadata : Metadata) :
    (d.finish metadata).WellFormed := by
  have ids : ∀ id, id ∈ d.ids ↔ d.Known id := fun id => sound.perm.mem_iff
  refine ⟨sound.perm.nodup_iff.mpr (nodup_nodeIds d.nodeCount), ?_, ?_, ?_⟩
  · intro id
    change id ∈ d.ids ↔ ∃ k, 1 ≤ k ∧ k ≤ d.nodes.length ∧ id = nodeId k
    rw [ids, sound.length_nodes]
    exact mem_nodeIds
  · change d.links.map (·.id) = linkIds d.links.length
    rw [sound.length_links]
    exact sound.numbered
  · intro l member
    obtain ⟨source, target⟩ := sound.ends l member
    exact ⟨(ids l.source).mpr source, (ids l.target).mpr target⟩

theorem processFlow_wellFormed {root : Element} {f : Flow} (h : processFlow? root = some f) :
    f.WellFormed := by
  obtain ⟨process, _, rfl⟩ := Option.map_eq_some_iff.mp h
  exact finish_wellFormed (drawProcess_sound process) _

theorem projectFlow_wellFormed {root : Element} {f : Flow} (h : projectFlow? root = some f) :
    f.WellFormed := by
  unfold projectFlow? at h
  split at h
  · cases h
  · split at h
    · cases h
      exact empty_wellFormed _
    · split at h
      · cases h
        exact empty_wellFormed _
      · cases h
        exact finish_wellFormed (drawOrchestration_sound _ _) _

theorem ofRoot_flow (root : Element) :
    projectFlow? root = some (ofRoot root).flow ∨ processFlow? root = some (ofRoot root).flow ∨
      (ofRoot root).flow = empty unknownName := by
  unfold ofRoot
  cases projectFlow? root with
  | some f =>
      cases processFlow? root with
      | some g =>
          dsimp only
          split
          · exact .inl rfl
          · split
            · exact .inr (.inl rfl)
            · exact .inl rfl
      | none =>
          dsimp only
          split
          · exact .inl rfl
          · exact .inl rfl
  | none =>
      cases processFlow? root with
      | some g =>
          dsimp only
          split
          · exact .inr (.inl rfl)
          · exact .inr (.inl rfl)
      | none => exact .inr (.inr rfl)

theorem ofRoot_wellFormed (root : Element) : (ofRoot root).flow.WellFormed := by
  obtain project | process | none := ofRoot_flow root
  · exact projectFlow_wellFormed project
  · exact processFlow_wellFormed process
  · rw [none]
    exact empty_wellFormed unknownName

theorem parse_wellFormed (xml : String) : (parse xml).flow.WellFormed := by
  unfold parse
  split
  · exact ofRoot_wellFormed _
  · exact empty_wellFormed "Parse Error"

def PlacesAll (d : Draft) : Prop :=
  ∀ k, 1 ≤ k → k ≤ d.nodeCount → d.ids.count (nodeId k) = 1

theorem Draft.Sound.placesAll {d : Draft} (sound : Sound [] d) : PlacesAll d := by
  intro k positive bound
  rw [sound.perm.count_eq]
  exact List.count_eq_one_of_mem (nodup_nodeIds d.nodeCount) (mem_nodeIds.mpr ⟨k, positive, bound, rfl⟩)

/-- The flow of every text is well-formed: each id that a drawing hands out is placed once, and that of
a join, a merge or the end of a pick, which is reserved before the branches, is placed below them. -/
theorem parseFlow_wellFormed :
    (∀ xml : String, (parseFlow xml).WellFormed) ∧
    (∀ process : Element, PlacesAll (drawProcess process)) ∧
    (∀ (ds : Declared) (orchestration : Element), PlacesAll (drawOrchestration ds orchestration)) ∧
    (∀ (offset : Coord) (entry : Entry) (parent : Option String) (d : Draft) (h : StepHead)
      (branches : List Step),
      ClosesWith (drawStep offset entry parent d (.parallel h branches)) (nodeId (d.nodeCount + 2))
        joinSpec) ∧
    ∀ (offset : Coord) (entry : Entry) (parent : Option String) (d : Draft) (h : StepHead)
      (branches : List (String × List Step)),
      ClosesWith (drawStep offset entry parent d (.conditional h branches)) (nodeId (d.nodeCount + 2))
        (mergeSpec h.activity) := by
  exact ⟨parse_wellFormed, fun p => (drawProcess_sound p).placesAll,
    fun ds o => (drawOrchestration_sound ds o).placesAll,
    fun offset entry parent d _ _ => drawStep_closes offset entry parent d rfl,
    fun offset entry parent d _ _ => drawStep_closes offset entry parent d rfl⟩

end ExportDiff.Flow
