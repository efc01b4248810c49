/- The two documents of a comparison. -/
import ExportDiff.Json.Printer
import ExportDiff.Report.Shape
import ExportDiff.Snapshot.Comparison

namespace ExportDiff.Report
open Change ExportDiff.Flow Snapshot

def comparisonShape (c : Snapshot.Comparison) : List (String × Json) :=
  fileDiffFields c.diff ++
    [("left_flow", optionalFlow c.leftFlow), ("right_flow", optionalFlow c.rightFlow),
     ("flow_comparison", .object (comparisonFields c.flows))]

def toolFields (generatedAt : String) : List (String × Json) :=
  [("tool", text "integration-diff"), ("version", text "1.0.0"), ("generated_at", text generatedAt)]

/-- What a report says about one archive. -/
structure ArchiveInfo where
  fileName : String
  sha256 : String
  size : Nat
  totalFiles : Nat

def ArchiveInfo.of (s : Snapshot) : ArchiveInfo := ⟨s.fileName, s.sha256, s.size, s.files.length⟩

def archiveInfo (a : ArchiveInfo) : Json :=
  .object [("file_name", text a.fileName), ("sha256", text a.sha256), ("size", .ofNat a.size),
    ("total_files", .ofNat a.totalFiles)]

/-- Pretty documents are indented; characters other than ASCII stay as they are. -/
def style (pretty : Bool) : Json.Style := ⟨pretty, false⟩

def diffReport (pretty : Bool) (generatedAt : String) (left right : Option ArchiveInfo) (d : FileDiff) :
    String :=
  let head := .object (toolFields generatedAt ++
    [("left", Json.ofOption archiveInfo left), ("right", Json.ofOption archiveInfo right)])
  (Json.object (("_metadata", head) :: fileDiffFields d)).print (style pretty)

def flowReport (pretty : Bool) (generatedAt : String) (left right : Option Flow) (c : Flow.Comparison) :
    String :=
  (Json.object ([("_metadata", .object (toolFields generatedAt)), ("left_flow", optionalFlow left),
    ("right_flow", optionalFlow right)] ++ comparisonFields c)).print (style pretty)

end ExportDiff.Report
