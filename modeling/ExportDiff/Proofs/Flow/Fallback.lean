/- Which file gives an archive its flow, what an empty flow tells, and when there is none at all. -/
import ExportDiff.Proofs.Flow.Discovery
import ExportDiff.Proofs.Xml.Document

namespace ExportDiff.Flow
open Snapshot Text Xml

/-- An empty flow tells that its text is no document, or else under which name it was recognised. -/
inductive TellsOf (xml : String) : Flow → Prop
  | unreadable {e} : Xml.read xml = .error e → TellsOf xml (.empty "Parse Error")
  | recognised {root f} : Xml.read xml = .ok root →
      (projectFlow? root).or (processFlow? root) = some f → TellsOf xml f
  | unknown {root} : Xml.read xml = .ok root → projectFlow? root = none → processFlow? root = none →
      TellsOf xml (.empty unknownName)

section
variable {root : Element} {xml : String} {f : FileRecord} {files : List FileRecord}

theorem ofRoot_of_isEmpty (bare : (ofRoot root).flow.isEmpty) :
    (ofRoot root).flow = ((projectFlow? root).or (processFlow? root)).getD (.empty unknownName) := by
  revert bare
  unfold ofRoot
  cases projectFlow? root with
  | none =>
      cases processFlow? root with
      | none => exact fun _ => rfl
      | some g =>
          intro bare
          dsimp only at bare ⊢
          split <;> rfl
  | some f =>
      dsimp only
      split
      · exact fun _ => rfl
      · cases processFlow? root with
        | none => exact fun _ => rfl
        | some g =>
            dsimp only
            -- A process with nodes would not have given an empty flow.
            split
            · next nodes => exact fun bare => by simp [bare] at nodes
            · exact fun _ => rfl

theorem tellsOf_parseFlow (bare : (parseFlow xml).isEmpty) : TellsOf xml (parseFlow xml) := by
  revert bare
  unfold parseFlow parse
  split
  · next root read =>
      intro bare
      rw [ofRoot_of_isEmpty bare]
      cases found : (projectFlow? root).or (processFlow? root) with
      | some f => exact .recognised read found
      | none =>
          obtain ⟨project, process⟩ := Option.or_eq_none_iff.mp found
          exact .unknown read project process
  · next e read => exact fun _ => .unreadable read

/-- The flow of the project file if it has nodes, else that of the process file. -/
theorem flowOfFiles?_eq (files : List FileRecord) :
    flowOfFiles? files =
      ((((projectFile? files).bind (·.content)).map parseFlow).filter fun f => !f.isEmpty).or
        (((processFile? files).bind (·.content)).map parseFlow) := by
  have process : (((processFile? files).bind (·.content)).map parse).map (·.flow) =
      ((processFile? files).bind (·.content)).map parseFlow := by
    rw [Option.map_map]
    rfl
  rw [flowOfFiles?, parsedTexts]
  cases (projectFile? files).bind (·.content) with
  | none => exact process
  | some c =>
      rw [Option.map_some, Option.filter_some, parseFlow]
      dsimp only
      split
      · rfl
      · exact process

theorem content_of_filled (filled : filledContent? f ≠ none) : ∃ c, f.content = some c := by
  obtain ⟨c, same⟩ := Option.ne_none_iff_exists'.mp filled
  exact ⟨c, (Option.filter_eq_some_iff.mp same).1⟩

theorem content_of_projectFile? (found : projectFile? files = some f) : ∃ c, f.content = some c :=
  content_of_filled (filled_of_isProjectFile (List.find?_some found))

theorem content_of_processFile? (found : processFile? files = some f) : ∃ c, f.content = some c :=
  content_of_filled (filled_of_isProcessFile (List.find?_some found))

theorem projectFlow_eq_none_iff :
    (((projectFile? files).bind (·.content)).map parseFlow).filter (fun f => !f.isEmpty) = none ↔
      ∀ f ∈ projectFile? files, ∃ c ∈ f.content, (parseFlow c).isEmpty := by
  cases found : projectFile? files with
  | none => simp
  | some f =>
      obtain ⟨c, content⟩ := content_of_projectFile? found
      simp [content]

theorem processFlow_eq_none_iff :
    ((processFile? files).bind (·.content)).map parseFlow = none ↔ processFile? files = none := by
  cases found : processFile? files with
  | none => simp
  | some f =>
      obtain ⟨c, content⟩ := content_of_processFile? found
      simp [content]

end

/-- Without a process file, a project file whose flow has no nodes leaves an archive without a flow, not
with an empty one. A process file always gives a flow, if need be an empty one that tells of its text. -/
theorem flowOfFiles?_eq_none_iff (files : List FileRecord) :
    (flowOfFiles? files = none ↔ processFile? files = none ∧
      ∀ f ∈ projectFile? files, ∃ c ∈ f.content, (parseFlow c).isEmpty) ∧
    ∀ flow ∈ flowOfFiles? files, ∃ f c, f.content = some c ∧ flow = parseFlow c ∧
      (projectFile? files = some f ∧ flow.isEmpty = false ∨
        processFile? files = some f ∧ (flow.isEmpty → TellsOf c flow)) := by
  rw [flowOfFiles?_eq]
  constructor
  · rw [Option.or_eq_none_iff, projectFlow_eq_none_iff, processFlow_eq_none_iff, and_comm]
  · intro flow given
    obtain project | ⟨_, process⟩ := Option.or_eq_some_iff.mp given
    · obtain ⟨parsed, nodes⟩ := Option.filter_eq_some_iff.mp project
      obtain ⟨c, text, rfl⟩ := Option.map_eq_some_iff.mp parsed
      obtain ⟨f, found, content⟩ := Option.bind_eq_some_iff.mp text
      exact ⟨f, c, content, rfl, .inl ⟨found, by simpa using nodes⟩⟩
    · obtain ⟨c, text, rfl⟩ := Option.map_eq_some_iff.mp process
      obtain ⟨f, found, content⟩ := Option.bind_eq_some_iff.mp text
      exact ⟨f, c, content, rfl, .inr ⟨found, tellsOf_parseFlow⟩⟩

def ordersProject : String := "<icsproject><projectName>Orders</projectName><icsflow/></icsproject>"

/-- A project file that is recognised by its name, but has no orchestration. -/
def bareProject : FileRecord := ⟨"x/project-inf/project.xml", "", 0, some ordersProject⟩

/-- It is found and its text gives an empty flow with its name, but the archive has no flow. -/
theorem flowOfFiles?_bareProject :
    projectFile? [bareProject] = some bareProject ∧ bareProject.content = some ordersProject ∧
    (parseFlow ordersProject).isEmpty ∧ (parseFlow ordersProject).metadata.processName = "Orders" ∧
    flowOfFiles? [bareProject] = none := by
  have text := read_tag ordersProject (c := 'i') rfl (by decide) (by decide)
    (by decide +kernel) (by decide +kernel)
  have found : projectFile? [bareProject] = some bareProject := by decide
  have process : processFile? [bareProject] = none := by decide
  have flow : (parseFlow ordersProject).isEmpty ∧ (parseFlow ordersProject).metadata.processName = "Orders" := by
    rw [parseFlow, parse, text]
    decide +kernel
  refine ⟨found, rfl, flow.1, flow.2, ?_⟩
  rw [flowOfFiles?_eq, found, process]
  simp [bareProject, flow.1]

end ExportDiff.Flow
