/- Project documents: what they declare, and what an orchestration element says about its node. -/
import ExportDiff.Flow.Activity
import ExportDiff.Text.CharClass
import ExportDiff.Text.Pattern

namespace ExportDiff.Flow
open Text Xml

/-- A connector to an outside system. -/
structure Application where
  name : String
  role : String
  type : String
  code : String
  deriving DecidableEq

/-- A named part of the behaviour. -/
structure Processor where
  type : String
  role : String
  deriving DecidableEq

/-- A repeated key keeps its place with its last value. -/
def putNamed {α} (key : String) (v : α) : List (String × α) → List (String × α)
  | [] => [(key, v)]
  | (k, w) :: rest => if k = key then (k, v) :: rest else (k, w) :: putNamed key v rest

def lookupNamed {α} (key : String) (entries : List (String × α)) : Option α :=
  (entries.find? (·.1 = key)).map (·.2)

/-- The declarations with a tag by their names; one without a name is left out. -/
def declarations {α} (flow : Element) (tag : String) (read : String → Element → α) : List (String × α) :=
  (flow.childrenNamed tag).foldl (fun done e =>
    match e.filled? "name" with
    | some key => putNamed key (read key e) done
    | none => done) []

def readApplication (key : String) (e : Element) : Application :=
  let adapter := (e.child? "adapter").getD ⟨"adapter", [], "", []⟩
  { name := (adapter.childText? "name").getD key
    role := (e.childText? "role").getD "unknown"
    type := (adapter.childText? "type").getD "unknown"
    code := (adapter.childText? "code").getD "" }

def readProcessor (_ : String) (e : Element) : Processor :=
  { type := (e.childText? "type").getD "unknown", role := (e.childText? "role").getD "" }

/-- What a project declares before its orchestration. -/
structure Declared where
  applications : List (String × Application)
  processors : List (String × Processor)

def Declared.of (flow : Element) : Declared :=
  ⟨declarations flow "application" readApplication, declarations flow "processor" readProcessor⟩

/-- The key that a reference starts with: a word and its number. -/
def referredKey? (word : String) (reference : String) : Option String :=
  let s := reference.toList
  ((Pattern.of [.text word, .run isDigit]).matchAt none s).map fun m =>
    String.ofList (s.take m.length)

namespace Declared

def application? (d : Declared) (e : Element) : Option Application :=
  (e.attribute? "refUri").bind fun r => (referredKey? "application_" r).bind (lookupNamed · d.applications)

def processor? (d : Declared) (e : Element) : Option Processor :=
  (e.attribute? "refUri").bind fun r => (referredKey? "processor_" r).bind (lookupNamed · d.processors)

end Declared

/-- Elements that hold others and are closed by an end node. -/
def isContainer (tag : String) : Bool := tag = "try" || tag = "switch" || tag = "forEach"

/-- Branches hold others too, but nothing closes them. -/
def isBranch (tag : String) : Bool := tag = "case" || tag = "otherwise"

def isOrchestrated (tag : String) : Bool :=
  ["receive", "transformer", "invoke", "stageFile", "try", "switch", "forEach", "assign",
   "activityStreamLogger", "stop", "case", "otherwise"].contains tag

def isCounted (tag : String) : Bool := ["transformer", "invoke", "assign", "stageFile"].contains tag

def projectKind (tag : String) : NodeKind :=
  if tag = "receive" then .trigger
  else if tag = "try" then .scope
  else if tag = "catchAll" then .error
  else if tag = "stop" then .final
  else if tag = "switch" || tag = "case" then .switch
  else if tag = "forEach" then .loop
  else .action

def projectIcons : List (String × String) :=
  [("receive", "inbox"), ("transformer", "shuffle"), ("invoke", "database"), ("stageFile", "file"),
   ("try", "shield"), ("catchAll", "alert-triangle"), ("activityStreamLogger", "activity"),
   ("stop", "square"), ("switch", "git-fork"), ("forEach", "repeat"), ("assign", "copy")]

/-- The name and the activity of an element, as the declarations it refers to tell them. -/
def displayed (d : Declared) (e : Element) : String × String :=
  let own := ((e.filled? "name").or (e.filled? "id")).getD e.tag
  let shown := match d.application? e with
    | some a => (a.name, e.tag ++ " (" ++ (if a.code = "" then a.type else a.code) ++ ")")
    | none => (own, e.tag)
  match d.processor? e with
  | some p =>
      if p.type = "transformer" then ((e.filled? "name").getD "Map", "Map")
      else if mentions (lowercase p.type) "stage" then ("Stage File", "Stage File")
      else shown
  | none => shown

/-- The operation that an element names, in an attribute or a child of its own. -/
def operationName? (e : Element) : Option String :=
  (e.child? "operation").bind fun o => (o.filled? "name").or (o.childText? "name")

def applicationEntries : Option Application → Data
  | some a =>
      [("partnerLink", Json.ofString a.name), ("adapterType", Json.ofString a.type),
       ("adapterCode", Json.ofString a.code), ("role", Json.ofString a.role)]
  | none => []

def containerEntries (e : Element) : Data :=
  if isContainer e.tag then
    [("childCount", Json.ofNat (e.children.filter fun c => isCounted c.tag).length),
     ("hasErrorHandler", .bool (e.child? "catchAll").isSome)]
  else []

def branchEntries (e : Element) : Data :=
  let cases := (e.childrenNamed "case").length
  if cases = 0 then []
  else [("branchCount", Json.ofNat (cases + if (e.child? "otherwise").isSome then 1 else 0))]

def projectData (d : Declared) (e : Element) : Data :=
  Activity.attributeEntries e ["id", "refUri"] ++ applicationEntries (d.application? e) ++
    Activity.entry "operation" (operationName? e) ++
    Activity.entry "variable" (e.filled? "outputVariable") ++
    Activity.entry "inputVariable" (e.filled? "inputVariable") ++
    Activity.entry "endpoint" ((e.childText? "endpoint").or (e.childText? "endpointUrl")) ++
    containerEntries e ++ branchEntries e

end ExportDiff.Flow
