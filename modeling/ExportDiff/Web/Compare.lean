/- Comparisons of uploaded archives over the web. -/
import ExportDiff.Archive.Reader
import ExportDiff.Report.Document
import ExportDiff.Web.LineDiff

namespace ExportDiff.Web
open Text

structure Upload where
  fileName : String
  bytes : List UInt8

/-- Two archives, and the text of the field that says whether flows are wanted. -/
structure CompareRequest where
  left : Option Upload
  right : Option Upload
  includeFlows : Option String

/-- An upload must have a name that ends as archives do. -/
def archiveOf (field : String) : Option Upload → Except String Upload
  | none => .error ("No '" ++ field ++ "' file provided")
  | some u =>
      if endsIn u.fileName [".zip"] then .ok u
      else .error ("'" ++ field ++ "' must be a ZIP file")

/-- Flows are left out for the word "false" alone, in letters of either case. -/
def CompareRequest.wantsFlows (r : CompareRequest) : Bool :=
  lowercase (r.includeFlows.getD "true") ≠ "false"

def archiveFields (s : Snapshot) : Json :=
  .object [("file_name", Json.ofString s.fileName), ("sha256", Json.ofString s.sha256),
    ("total_files", .ofNat s.files.length)]

/-- The answer to two readable archives. -/
def comparison (flows : Bool) (left right : Snapshot) : Response :=
  let options := { Snapshot.Options.usual with includeFlows := flows }
  .ok ([("left", archiveFields left), ("right", archiveFields right)] ++
    Report.comparisonShape (Snapshot.compare options left.files right.files))

/-- A failure that is reported is an answer as well. -/
def answerOf (result : Except Archive.Error Response) : Except Archive.Error Response :=
  match result with
  | .ok r => .ok r
  | .error e => match e.report? with
    | some message => .ok (.refused message)
    | none => .error e

def readUpload (u : Upload) : Except Archive.Error Snapshot :=
  Archive.read Snapshot.usualLimit u.fileName u.bytes

def compare (r : CompareRequest) : Except Archive.Error Response :=
  match archiveOf "left" r.left, archiveOf "right" r.right with
  | .error message, _ => .ok (.refused message)
  | .ok _, .error message => .ok (.refused message)
  | .ok l, .ok r' => answerOf do
      return comparison r.wantsFlows (← readUpload l) (← readUpload r')

end ExportDiff.Web
