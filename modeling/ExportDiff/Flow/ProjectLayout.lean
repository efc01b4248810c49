/- Drawing the orchestration of a project document. -/
import ExportDiff.Flow.Draft
import ExportDiff.Flow.Project

namespace ExportDiff.Flow
open Text Xml

def projectGrid : Grid := ⟨.ofInt 400, .ofInt 100, .exact⟩

def elementSpec (ds : Declared) (e : Element) : NodeSpec :=
  let (name, activity) := displayed ds e
  ⟨projectKind e.tag, name, activity, lookupNamed e.tag projectIcons, projectData ds e⟩

/-- The node that closes a container. -/
def endSpec (ds : Declared) (e : Element) : NodeSpec :=
  ⟨.action, "End " ++ (displayed ds e).1, e.tag ++ "End", none, []⟩

def catchAllSpec (ds : Declared) (e : Element) : NodeSpec :=
  ⟨.error, ((e.filled? "name").or (e.filled? "id")).getD "catchAll", "catchAll",
    lookupNamed "catchAll" projectIcons, projectData ds e⟩

/-- Handlers stand aside and are linked from their container; those of the root, which has no node,
from the first node of the flow. -/
def drawCatchAlls (ds : Declared) (parent : Option String) (children : List Element) (d : Draft) : Draft :=
  (children.filter (·.tag = "catchAll")).foldl (fun d e =>
    let anchor := parent.or (d.nodes.head?.map (·.id))
    let (id, d) := d.place (catchAllSpec ds e) handlerOffset oneRow
    match anchor with
    | some a => d.link a id .error (some "error")
    | none => d) d

mutual

/-- Draws an element and what it holds; the next one is linked from the id that is given back. -/
def drawElement (ds : Declared) (parent : Option String) (d : Draft) : Element → String × Draft
  | ⟨tag, attributes, text, children⟩ =>
      let e : Element := ⟨tag, attributes, text, children⟩
      let (id, d) := d.place (elementSpec ds e) (.ofInt 0) oneRow
      let d := match parent with
        | some p => d.link p id .plain none
        | none => d
      if isContainer tag then
        let (last, d) := drawElements ds (some id) d children
        let d := drawCatchAlls ds (some id) children d
        let (close, d) := d.place (endSpec ds e) (.ofInt 0) oneRow
        (close, d.link (last.getD id) close .plain none)
      else if isBranch tag then
        let (last, d) := drawElements ds (some id) d children
        (last.getD id, drawCatchAlls ds (some id) children d)
      else (id, d)

/-- Draws the orchestrated ones of some elements one after another. -/
def drawElements (ds : Declared) (parent : Option String) (d : Draft) :
    List Element → Option String × Draft
  | [] => (parent, d)
  | e :: rest =>
      if isOrchestrated e.tag then
        let (id, d) := drawElement ds parent d e
        drawElements ds (some id) d rest
      else drawElements ds parent d rest

end

/-- A direct orchestration, else the first message context with one or with a bare global handler,
else the flow itself when it has a global handler. -/
def findOrchestration? (flow : Element) : Option Element :=
  let inContext (c : Element) : Option Element :=
    (c.child? "orchestration").or (if (c.child? "globalTry").isSome then some c else none)
  (flow.child? "orchestration").or <|
    ((flow.childrenNamed "messageContext").findSome? inContext).or <|
      if (flow.child? "globalTry").isSome then some flow else none

/-- The draft of an orchestration, whose global handler is passed through. -/
def drawOrchestration (ds : Declared) (orchestration : Element) : Draft :=
  let root := (orchestration.child? "globalTry").getD orchestration
  let (_, d) := drawElements ds none (.start projectGrid firstRow) root.children
  drawCatchAlls ds none root.children d

def projectMetadata (project : Element) : Metadata :=
  ⟨((project.childText? "projectName").or (project.childText? "projectCode")).getD "Integration Project",
    none, project.childText? "projectVersion"⟩

/-- The name of a flow of which nothing is known. -/
def unknownName : String := "Unknown"

/-- The flow of a project document, empty when it has no orchestration; none for other documents. -/
def projectFlow? (root : Element) : Option Flow :=
  if root.lowerTag ≠ "icsproject" then none
  else match root.childLike? "icsflow" with
    | none => some (.empty unknownName)
    | some flow => match findOrchestration? flow with
      | none => some (.empty ((root.childText? "projectName").getD unknownName))
      | some o => some ((drawOrchestration (.of flow) o).finish (projectMetadata root))

end ExportDiff.Flow
