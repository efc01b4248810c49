/- Which file is found as the flow definition, and when that depends on the limit for contents. -/
import ExportDiff.Flow.Discovery
import ExportDiff.Proofs.Archive.Reader
import ExportDiff.Proofs.Text.Pieces

namespace ExportDiff.Flow
open Archive Artifact Snapshot Text

section
variable {f : FileRecord} {s : Source} {sources : List Source} {files files' : List FileRecord}

theorem holdsFlow_of_isProjectFile (h : isProjectFile f = true) : holdsFlow f.path = true := by
  have marked : mentions (lowercase f.path) "project.xml" = true := by
    unfold isProjectFile at h
    split at h
    · rw [Bool.or_eq_true, Bool.and_eq_true] at h
      rcases h with folder | ⟨ending, _⟩
      · exact mentions_trans folder (by decide)
      · exact mentions_of_endsIn ending
    · cases h
  rw [holdsFlow, marked]
  rfl

/-- Either the file is kept whatever its length, or its path has only the name of the language. -/
theorem path_of_isProcessFile (h : isProcessFile f = true) :
    holdsFlow f.path = true ∨ mentions (lowercase f.path) "bpel" = true := by
  unfold isProcessFile at h
  split at h
  · rw [Bool.and_eq_true, Bool.or_eq_true] at h
    rcases h.1 with folder | bpel
    · left
      simp [holdsFlow, folder]
    · exact .inr bpel
  · cases h

/-- A search that only finds files that are kept whatever their length finds the same one at any limit. -/
theorem find?_recordsOf {p : FileRecord → Bool} (m n : Nat)
    (kept : ∀ s ∈ sources, ∀ limit, p (s.record limit) = true → holdsFlow s.path = true) :
    (recordsOf m sources).find? p = (recordsOf n sources).find? p := by
  induction sources with
  | nil => rfl
  | cons s sources ih =>
      have rest := ih fun s later => kept s (List.mem_cons_of_mem _ later)
      change (s.record m :: recordsOf m sources).find? p = (s.record n :: recordsOf n sources).find? p
      by_cases flow : holdsFlow s.path = true
      · rw [s.record_of_holdsFlow flow m n, List.find?_cons, List.find?_cons, rest]
      · have skipped (limit : Nat) : ¬ p (s.record limit) = true :=
          fun found => flow (kept s List.mem_cons_self limit found)
        rw [List.find?_cons_of_neg (skipped m), List.find?_cons_of_neg (skipped n), rest]

theorem projectFile?_recordsOf (m n : Nat) : projectFile? (recordsOf m sources) = projectFile? (recordsOf n sources) :=
  find?_recordsOf m n fun _ _ _ => holdsFlow_of_isProjectFile

theorem flowOfFiles?_congr (project : projectFile? files = projectFile? files')
    (process : processFile? files = processFile? files') : flowOfFiles? files = flowOfFiles? files' := by
  rw [flowOfFiles?, flowOfFiles?, parsedTexts, parsedTexts, project, process]

theorem flowOfFiles?_recordsOf (m n : Nat)
    (kept : ∀ s ∈ sources, mentions (lowercase s.path) "bpel" = true → holdsFlow s.path = true) :
    flowOfFiles? (recordsOf m sources) = flowOfFiles? (recordsOf n sources) := by
  refine flowOfFiles?_congr (projectFile?_recordsOf m n) (find?_recordsOf m n fun s member limit found => ?_)
  exact (path_of_isProcessFile found).elim id (kept s member)

/-- The flow of an archive does not depend on the limit when every file that may be a process is kept. -/
theorem flow_of_readRecords {b : Bytes} (read : readSources b = .ok sources) (m n : Nat)
    (kept : ∀ s ∈ sources, mentions (lowercase s.path) "bpel" = true → holdsFlow s.path = true) :
    (readRecords m b).map flowOfFiles? = (readRecords n b).map flowOfFiles? := by
  rw [readRecords_eq, readRecords_eq, read]
  exact congrArg Except.ok (flowOfFiles?_recordsOf m n kept)

theorem flowOfFiles?_of_process (missing : projectFile? files = none) :
    flowOfFiles? files = ((processFile? files).bind (·.content)).map parseFlow := by
  rw [flowOfFiles?, parsedTexts, missing]
  change (((processFile? files).bind (·.content)).map parse).map (·.flow) = _
  rw [Option.map_map]
  rfl

theorem filled_of_isProjectFile (h : isProjectFile f = true) : filledContent? f ≠ none := by
  intro blank
  rw [isProjectFile, blank] at h
  cases h

theorem filled_of_isProcessFile (h : isProcessFile f = true) : filledContent? f ≠ none := by
  intro blank
  rw [isProcessFile, blank] at h
  cases h

theorem flowOfFiles?_of_unfilled (unfilled : ∀ f ∈ files, filledContent? f = none) : flowOfFiles? files = none := by
  have project : projectFile? files = none :=
    List.find?_eq_none.mpr fun f member found => filled_of_isProjectFile found (unfilled f member)
  have process : processFile? files = none :=
    List.find?_eq_none.mpr fun f member found => filled_of_isProcessFile found (unfilled f member)
  rw [flowOfFiles?_of_process project, process]
  rfl

theorem flowOfFiles?_ne_none (project : projectFile? files = none) (member : f ∈ files)
    (process : isProcessFile f = true) : flowOfFiles? files ≠ none := by
  obtain ⟨g, found⟩ := Option.isSome_iff_exists.mp (List.find?_isSome.mpr ⟨f, member, process⟩)
  have filled := filled_of_isProcessFile (List.find?_some found)
  rw [flowOfFiles?_of_process project, processFile?, found, Option.bind_some, Ne, Option.map_eq_none_iff]
  intro withheld
  exact filled (by rw [filledContent?, withheld]; rfl)

/-- A process at a path, and nothing in any other file. -/
def loneProcess (p : String) (paths : List String) : List Source :=
  paths.map fun q => ⟨q, 0, if q = p then "<process/>" else ""⟩

variable {p : String} {paths : List String}

theorem loneProcess_paths : (loneProcess p paths).map (·.path) = paths := by
  simp [loneProcess, Function.comp_def]

theorem filledContent?_loneProcess {limit : Nat} (member : f ∈ recordsOf limit (loneProcess p paths))
    (filled : filledContent? f ≠ none) : f = (Source.mk p 0 "<process/>").record limit := by
  obtain ⟨s, there, rfl⟩ := List.mem_map.mp member
  obtain ⟨q, _, rfl⟩ := List.mem_map.mp there
  by_cases same : q = p
  · rw [if_pos same, same]
  · refine absurd ?_ filled
    rw [if_neg same, filledContent?, Source.record, FileRecord.ofText]
    split_ifs <;> rfl

theorem flow_loneProcess_withheld (withheld : holdsFlow p = false) :
    flowOfFiles? (recordsOf 0 (loneProcess p paths)) = none := by
  refine flowOfFiles?_of_unfilled fun f member => ?_
  by_contra filled
  rw [filledContent?_loneProcess member filled] at filled
  exact filled (by simp [filledContent?, Source.record, FileRecord.ofText, withheld])

theorem flow_loneProcess_kept (member : p ∈ paths) (bpel : mentions (lowercase p) "bpel" = true)
    (withheld : holdsFlow p = false) : flowOfFiles? (recordsOf 100 (loneProcess p paths)) ≠ none := by
  have project : projectFile? (recordsOf 100 (loneProcess p paths)) = none := by
    refine List.find?_eq_none.mpr fun f there found => ?_
    have holds := holdsFlow_of_isProjectFile found
    rw [filledContent?_loneProcess there (filled_of_isProjectFile found)] at holds
    exact absurd (holds.symm.trans withheld) (by decide)
  have there : (Source.mk p 0 "<process/>").record 100 ∈ recordsOf 100 (loneProcess p paths) := by
    refine List.mem_map_of_mem (List.mem_map.mpr ⟨p, member, ?_⟩)
    rw [if_pos rfl]
  refine flowOfFiles?_ne_none project there ?_
  have filled : filledContent? ((Source.mk p 0 "<process/>").record 100) = some "<process/>" := by
    have short : (decide ("<process/>".length < 100) || holdsFlow p) = true :=
      Bool.or_eq_true_iff.mpr (.inl (by decide))
    rw [filledContent?, Source.record, FileRecord.ofText, if_pos short]
    rfl
  rw [isProcessFile, filled]
  change ((mentions (lowercase p) "orchestration" || mentions (lowercase p) "bpel") && _) = true
  rw [bpel, Bool.or_true, Bool.true_and]
  decide

end

/-- The flow of files at some paths does not depend on the limit, whatever the files hold, if and only if
every path that has "bpel" in it is one whose file is always kept. -/
theorem flowOfFiles?_limit_iff (paths : List String) :
    (∀ sources : List Source, sources.map (·.path) = paths →
      ∀ m n, flowOfFiles? (recordsOf m sources) = flowOfFiles? (recordsOf n sources)) ↔
    ∀ p ∈ paths, mentions (lowercase p) "bpel" = true → holdsFlow p = true := by
  constructor
  · intro same p member bpel
    by_contra other
    have withheld := Bool.eq_false_iff.mpr other
    exact flow_loneProcess_kept member bpel withheld
      ((same _ loneProcess_paths 100 0).trans (flow_loneProcess_withheld withheld))
  · rintro kept sources rfl m n
    exact flowOfFiles?_recordsOf m n fun s member => kept s.path (List.mem_map_of_mem member)

def bpelFolder : Source := ⟨"bpel/main.xml", 52, "<process name=\"Order\"><receive name=\"In\"/></process>"⟩

/-- A process in a folder named after the language is found only if its text is below the limit. -/
theorem flowOfFiles?_bpelFolder :
    flowOfFiles? (recordsOf 10 [bpelFolder]) = none ∧
    flowOfFiles? (recordsOf usualLimit [bpelFolder]) = some (parseFlow bpelFolder.text) := by
  constructor
  · exact flowOfFiles?_of_unfilled (by decide)
  · have project : projectFile? (recordsOf usualLimit [bpelFolder]) = none := by decide
    have process : ((processFile? (recordsOf usualLimit [bpelFolder])).bind (·.content)) = some bpelFolder.text := by
      decide
    rw [flowOfFiles?_of_process project, process]
    rfl

end ExportDiff.Flow
