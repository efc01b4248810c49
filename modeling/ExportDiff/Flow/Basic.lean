/- Flows: the steps of an integration as nodes, and the links between them. -/
import ExportDiff.Flow.Coord
import ExportDiff.Json.Basic

namespace ExportDiff.Flow

inductive NodeKind where
  | trigger
  | action
  | switch
  | loop
  | scope
  | error
  | final
  deriving DecidableEq

def NodeKind.all : List NodeKind := [.trigger, .action, .switch, .loop, .scope, .error, .final]

def NodeKind.name : NodeKind → String
  | .trigger => "trigger"
  | .action => "action"
  | .switch => "switch"
  | .loop => "loop"
  | .scope => "scope"
  | .error => "error"
  | .final => "end"

inductive LinkKind where
  | plain
  | conditional
  | error
  deriving DecidableEq

def LinkKind.all : List LinkKind := [.plain, .conditional, .error]

def LinkKind.name : LinkKind → String
  | .plain => "default"
  | .conditional => "conditional"
  | .error => "error"

/-- What is known of a step beyond its name, in the order in which it was found. -/
abbrev Data := List (String × Json)

structure Node where
  id : String
  kind : NodeKind
  name : String
  activity : String
  icon : Option String
  x : Coord
  y : Coord
  data : Data

structure Link where
  id : String
  source : String
  target : String
  kind : LinkKind
  label : Option String
  deriving DecidableEq

structure Metadata where
  processName : String
  nspace : Option String
  version : Option String
  deriving DecidableEq

end ExportDiff.Flow

namespace ExportDiff

structure Flow where
  nodes : List Flow.Node
  links : List Flow.Link
  metadata : Flow.Metadata

namespace Flow

def empty (processName : String) : Flow := ⟨[], [], ⟨processName, none, none⟩⟩

def isEmpty (f : Flow) : Bool := f.nodes.isEmpty

def node? (f : Flow) (id : String) : Option Node := f.nodes.find? (·.id = id)

end Flow

end ExportDiff
