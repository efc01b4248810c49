/- A coarse text of what changed: lines that occur on one side only, wherever they stand. -/
import ExportDiff.Change.Basic
import ExportDiff.Text.CharClass
import ExportDiff.Text.Search

namespace ExportDiff.Change
open Text

/-- The lines shown under a limit; a negative limit leaves out as many at the end. -/
def shown {α} (limit : Int) (lines : List α) : List α :=
  if limit < 0 then lines.take (lines.length - limit.natAbs) else lines.take limit.toNat

/-- One side's lines under a header, and how many are left out. -/
def sideLines (lines : List String) (header marker noun : String) (limit : Int) : List String :=
  header :: (shown limit lines).map (fun l => marker ++ " " ++ l) ++
    if limit < lines.length then
      ["... and " ++ toString ((lines.length : Int) - limit) ++ " more " ++ noun ++ " lines"]
    else []

def trimmed (s : String) : String := String.ofList (trim s.toList)

/-- The lines that are not blank and stand, trimmed, nowhere on the other side. -/
def linesMissing (lines others : List String) : List String :=
  let known := others.map trimmed
  lines.filter fun l => trimmed l ≠ "" && !known.contains (trimmed l)

def sizeLine (label : String) (lines : List String) (content : String) : String :=
  label ++ ": " ++ toString lines.length ++ " lines, " ++ toString content.length ++ " bytes"

def sizeChange (left right : String) : String :=
  let delta := (right.length : Int) - left.length
  "Change: " ++ (if 0 < delta then "+" else "") ++ toString delta ++ " bytes"

def sameLinesNote : String := "(Content differs only in whitespace or line ordering)"

def excerptLines (left right : String) (limit : Int) : List String :=
  let ls := stringPieces '\n' left
  let rs := stringPieces '\n' right
  let removed := linesMissing ls rs
  let added := linesMissing rs ls
  let head := ["=== FILE MODIFIED ===", sizeLine "Old" ls left, sizeLine "New" rs right,
    sizeChange left right, ""]
  let removals := if removed = [] then [] else
    sideLines removed ("--- REMOVED (" ++ toString removed.length ++ " lines) ---") "-" "removed" limit ++ [""]
  let additions := if added = [] then [] else
    sideLines added ("+++ ADDED (" ++ toString added.length ++ " lines) +++") "+" "added" limit
  let note := if removed = [] && added = [] then [sameLinesNote] else []
  head ++ removals ++ additions ++ note

def modifiedExcerpt (left right : String) (limit : Int) : String := join "\n" (excerptLines left right limit)

/-- Nothing when the content that is needed is not known. -/
def excerpt? (left right : Option String) (change : ChangeKind) (limit : Int) : Option String :=
  match change, left, right with
  | .added, _, some r => some ("+++ ADDED FILE +++\n\n" ++ r)
  | .removed, some l, _ => some ("--- REMOVED FILE ---\n\n" ++ l)
  | .modified, some l, some r => some (modifiedExcerpt l r limit)
  | _, _, _ => none

end ExportDiff.Change
