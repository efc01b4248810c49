/- One reported change, with all that a report says about it. -/
import ExportDiff.Artifact.StepKind
import ExportDiff.Change.Excerpt
import ExportDiff.Change.Rating
import ExportDiff.Change.Sides
import ExportDiff.Change.Wording
import ExportDiff.Snapshot.Record

namespace ExportDiff.Change
open Artifact Snapshot

/-- A file as an item refers to it. -/
structure FileRef where
  path : String
  hash : Option String
  deriving DecidableEq

structure Item where
  key : String
  change : ChangeKind
  rating : Rating
  files : Sides FileRef
  category : Category
  kindLabel : String
  name : String
  objectName : Option String
  stepKind : Option String
  description : String
  headline : String
  excerpt : Option String

/-- The content that counts: the right one unless it is not known. -/
def currentContent (files : Sides FileRecord) : Option String :=
  (files.right?.bind (·.content)).or (files.left?.bind (·.content))

def Item.ofFiles (key : String) (change : ChangeKind) (rating : Rating) (files : Sides FileRecord)
    (lineLimit : Int) : Item :=
  let old := files.left?.bind (·.content)
  let new := files.right?.bind (·.content)
  let current := currentContent files
  let displayPath := files.newest.path
  let object := objectName? current
  { key, change, rating
    files := files.map fun f => ⟨f.path, some f.hash⟩
    category := categoryOf key
    kindLabel := Artifact.kindLabel key
    name := displayName displayPath object
    objectName := object
    stepKind := stepKind? current key
    description := describe change key old new
    headline := Change.headline key change (some displayPath)
    excerpt := excerpt? old new change lineLimit }

end ExportDiff.Change
