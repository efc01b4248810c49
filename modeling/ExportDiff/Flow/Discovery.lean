/- Finding the flow definition among the files of an archive. -/
import ExportDiff.Flow.Parsed
import ExportDiff.Snapshot.Record

namespace ExportDiff.Flow
open Snapshot Text

/-- A file with a known content that is not empty. -/
def filledContent? (f : FileRecord) : Option String := f.content.filter (· ≠ "")

def isProjectFile (f : FileRecord) : Bool :=
  match filledContent? f with
  | some c =>
      let p := lowercase f.path
      mentions p "project-inf/project.xml" || (endsIn p ["project.xml"] && mentions c "orchestration")
  | none => false

def isProcessFile (f : FileRecord) : Bool :=
  match filledContent? f with
  | some c =>
      let p := lowercase f.path
      (mentions p "orchestration" || mentions p "bpel") && (mentions c "<process" || mentions c ":process")
  | none => false

def projectFile? (files : List FileRecord) : Option FileRecord := files.find? isProjectFile

def processFile? (files : List FileRecord) : Option FileRecord := files.find? isProcessFile

/-- The texts that are parsed, in order, and the last result: the project file goes first, the
process file follows when that has no nodes. -/
def parsedTexts (files : List FileRecord) : List Parsed × Option Parsed :=
  let fromProcess := ((processFile? files).bind (·.content)).map parse
  match (projectFile? files).bind (·.content) with
  | some c =>
      let p := parse c
      if !p.flow.isEmpty then ([p], some p) else (p :: fromProcess.toList, fromProcess)
  | none => (fromProcess.toList, fromProcess)

/-- The flow of an archive, if a file can hold one. -/
def flowOfFiles? (files : List FileRecord) : Option Flow := (parsedTexts files).2.map (·.flow)

end ExportDiff.Flow
