/- The JSON shapes of results, as reports and answers carry them. -/
import ExportDiff.Change.FileDiff
import ExportDiff.Flow.Comparison
import ExportDiff.LineDiff.View

namespace ExportDiff.Report
open Change ExportDiff.Flow

def text (s : String) : Json := .ofString s

def optional (s : Option String) : Json := Json.ofOption Json.ofString s

def optionalNumber (n : Option Nat) : Json := Json.ofOption Json.ofNat n

def itemMetadata (i : Item) : Json :=
  .object [("category", text i.category.name), ("normalized_path", text i.key),
    ("original_paths", .ofStrings (i.files.toList.map (·.path))),
    ("object_name", optional i.objectName), ("action_type", optional i.stepKind),
    ("change_description", text i.description), ("simple_description", text i.headline),
    ("left_hash", optional (i.files.left?.bind (·.hash))),
    ("right_hash", optional (i.files.right?.bind (·.hash)))]

def item (i : Item) : Json :=
  .object [("entity_type", text i.kindLabel), ("entity_name", text i.name),
    ("change_type", text i.change.name), ("severity", text i.rating.severity.name),
    ("risk_reason", text i.rating.reason), ("left_ref", optional (i.files.left?.map (·.path))),
    ("right_ref", optional (i.files.right?.map (·.path))), ("diff_patch", optional i.excerpt),
    ("metadata", itemMetadata i)]

def categoryCounts (s : Summary) : Json :=
  .object (s.categories.map fun (c, n) => (c.name, .ofNat n))

def summary (s : Summary) : Json :=
  .object [("high", .ofNat s.high), ("medium", .ofNat s.medium), ("low", .ofNat s.low),
    ("info", .ofNat s.info), ("total_meaningful", .ofNat s.meaningful), ("categories", categoryCounts s)]

def fileDiffFields (d : FileDiff) : List (String × Json) :=
  [("summary", summary d.summary), ("items", .arr (d.items.map item)), ("warnings", .ofStrings d.warnings)]

/-- A coordinate with a point is a floating-point number. -/
def coord (c : Coord) : Json :=
  if c.pointed then .real (.ofRat c.value) else .int c.value.floor

def node (n : Node) : Json :=
  .object [("id", text n.id), ("type", text n.kind.name), ("name", text n.name),
    ("activity_type", text n.activity), ("icon", optional n.icon),
    ("position", .object [("x", coord n.x), ("y", coord n.y)]), ("data", .object n.data)]

/-- A field that is left out when there is nothing to say. -/
def field? (key : String) (value : Option String) : List (String × Json) :=
  (value.map fun v => (key, text v)).toList

def link (l : Link) : Json :=
  .object ([("id", text l.id), ("source", text l.source), ("target", text l.target),
    ("type", text l.kind.name)] ++ field? "label" l.label)

def metadata (m : Metadata) : Json :=
  .object (("process_name", text m.processName) :: field? "namespace" m.nspace ++ field? "version" m.version)

def flow (f : Flow) : Json :=
  .object [("nodes", .arr (f.nodes.map node)), ("connections", .arr (f.links.map link)),
    ("metadata", metadata f.metadata)]

def optionalFlow (f : Option Flow) : Json := Json.ofOption flow f

def changes (cs : List (String × Status)) : Json := .object (cs.map fun (id, s) => (id, text s.name))

def tallies (cs : List (String × Status)) : Json :=
  .object (Status.all.map fun s => (s.name, .ofNat (tally cs s)))

def comparisonFields (c : Comparison) : List (String × Json) :=
  [("left_changes", changes c.left), ("right_changes", changes c.right),
    ("counts", .object [("left", tallies c.left), ("right", tallies c.right)])]

def paneRow (r : LineDiff.PaneRow) : Json :=
  .object [("line_number", optionalNumber r.number), ("content", text r.text), ("type", text r.kind.name)]

def streamLine (l : LineDiff.StreamLine) : Json :=
  .object [("left_line_number", optionalNumber l.leftNumber),
    ("right_line_number", optionalNumber l.rightNumber), ("content", text l.text),
    ("type", text l.kind.name)]

end ExportDiff.Report
