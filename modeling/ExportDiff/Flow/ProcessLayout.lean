/- Drawing the steps of a process document. -/
import ExportDiff.Flow.Draft
import ExportDiff.Flow.Step

namespace ExportDiff.Flow
open Text Xml

def processGrid : Grid := ⟨.ofInt 300, .ofInt 120, .exact⟩

/-- Neighbouring branches stand this far apart. -/
def branchWidth : Int := 200

/-- Where branch `i` of `n` stands, when they are centred on a column. -/
def branchOffset (offset : Coord) (n i : Nat) : Coord :=
  (offset.add .exact ⟨-(((n : Int) - 1) * branchWidth : Int) / 2, true⟩).add .exact (.ofInt (i * branchWidth))

/-- How the first step of a chain is linked to what is before it. -/
structure Entry where
  kind : LinkKind
  label : Option String

def Entry.plain : Entry := ⟨.plain, none⟩

def Handler.spec (h : Handler) : NodeSpec :=
  { kind := .error
    name := if h.catchAll then "Catch All" else h.faultName.getD ("Catch " ++ toString h.number)
    activity := if h.catchAll then "catchAll" else "catch"
    icon := some "shield"
    data := Activity.entry "faultName" h.faultName }

/-- Handlers stand aside, half a row apart, linked from what they guard. -/
def drawHandlers (anchor : String) (offset : Coord) (handlers : List Handler) (d : Draft) : Draft :=
  handlers.foldl (fun d h =>
    let (id, d) := d.place h.spec (offset.add .exact handlerOffset) halfRow
    d.link anchor id .error (some "error")) d

def StepHead.spec (h : StepHead) : NodeSpec :=
  ⟨h.activity.nodeKind, h.name, h.activity.name, h.activity.icon, h.data⟩

def joinSpec : NodeSpec := ⟨.action, "Join", "flowEnd", none, []⟩

/-- The node where the branches of a conditional meet again. -/
def mergeSpec (a : Activity) : NodeSpec :=
  if a = .pick then ⟨.action, "Pick End", "pickEnd", none, []⟩
  else ⟨.action, "Merge", "conditionEnd", none, []⟩

/-- Places the node of a step and links it to what is before it. -/
def drawHead (h : StepHead) (offset : Coord) (entry : Entry) (parent : Option String) (d : Draft) :
    String × Draft :=
  let (id, d) := d.place h.spec offset oneRow
  match parent with
  | some p => (id, d.link p id entry.kind entry.label)
  | none => (id, d)

mutual

/-- Draws a step; the next step is linked from the id that is given back. -/
def drawStep (offset : Coord) (entry : Entry) (parent : Option String) (d : Draft) :
    Step → String × Draft
  | .plain h => drawHead h offset entry parent d
  | .sequence h body =>
      let (id, d) := drawHead h offset entry parent d
      let (last, d) := drawChain offset .plain (some id) d body
      (last.getD id, d)
  | .parallel h branches =>
      let (id, d) := drawHead h offset entry parent d
      let (join, d) := d.newNodeId
      let (bottom, d) := drawParallel offset id join branches.length 0 d.row d.row d branches
      let d := if branches.isEmpty then d.link id join .plain none else d
      (join, (d.setRow bottom).placeAs join joinSpec offset oneRow)
  | .conditional h branches =>
      let (id, d) := drawHead h offset entry parent d
      let (merge, d) := d.newNodeId
      let (bottom, d) := drawBranches offset id merge branches.length 0 d.row d.row d branches
      let d := if branches.isEmpty then d.link id merge .plain none else d
      (merge, (d.setRow bottom).placeAs merge (mergeSpec h.activity) offset oneRow)
  | .loop h body =>
      let (id, d) := drawHead h offset entry parent d
      let (last, d) := drawChain offset .plain (some id) d body
      let last := last.getD id
      (id, if last = id then d else d.link last id .conditional (some "loop"))
  | .scope h body handlers =>
      let (id, d) := drawHead h offset entry parent d
      let (last, d) := drawChain offset .plain (some id) d body
      (last.getD id, drawHandlers id offset handlers d)

/-- Draws steps one after another. Only the first is linked as `entry` says; the id given back is
that of the last one, or `parent` when there is none. -/
def drawChain (offset : Coord) (entry : Entry) (parent : Option String) (d : Draft) :
    List Step → Option String × Draft
  | [] => (parent, d)
  | s :: rest =>
      let (id, d) := drawStep offset entry parent d s
      drawChain offset .plain (some id) d rest

/-- Draws the `n` branches of a parallel step from branch `i` on, each from row `top`, and links
them to the join. Also gives the row below them all, `bottom` being that of the earlier ones. -/
def drawParallel (offset : Coord) (id join : String) (n i : Nat) (top bottom : Coord) (d : Draft) :
    List Step → Coord × Draft
  | [] => (bottom, d)
  | s :: rest =>
      let (last, d) := drawStep (branchOffset offset n i) .plain (some id) (d.setRow top) s
      let bottom := bottom.max d.row
      drawParallel offset id join n (i + 1) top bottom (d.link last join .plain none) rest

/-- The same for labelled branches, each of which is a chain; an empty one is a link of its own. -/
def drawBranches (offset : Coord) (id merge : String) (n i : Nat) (top bottom : Coord) (d : Draft) :
    List (String × List Step) → Coord × Draft
  | [] => (bottom, d)
  | (label, body) :: rest =>
      let entry : Entry := ⟨.conditional, some label⟩
      let d := d.setRow top
      let d := if body.isEmpty then d.link id merge entry.kind entry.label
        else
          let (last, d) := drawChain (branchOffset offset n i) entry (some id) d body
          d.link (last.getD id) merge .plain none
      drawBranches offset id merge n (i + 1) top (bottom.max d.row) d rest

end

/-- An element tagged `process` in any case, else the first whose tag mentions a process and no
processor. -/
def findProcess? (root : Element) : Option Element :=
  (root.walk.find? (·.lowerTag = "process")).or
    (root.walk.find? fun e => mentions e.lowerTag "process" && !mentions e.lowerTag "processor")

/-- The draft of a process element. -/
def drawProcess (process : Element) : Draft :=
  let d := (drawChain (.ofInt 0) .plain none (.start processGrid firstRow) (stepsWithin process)).2
  match d.nodes with
  | first :: _ => drawHandlers first.id (.ofInt 0) (handlersOf process) d
  | [] => d

def processMetadata (process : Element) : Metadata :=
  ⟨(process.filled? "name").getD "Unnamed Process", process.attribute? "targetNamespace", none⟩

/-- The flow of a process document; none when there is no process in it. -/
def processFlow? (root : Element) : Option Flow :=
  (findProcess? root).map fun p => (drawProcess p).finish (processMetadata p)

end ExportDiff.Flow
