/- A flow while it is drawn: nodes are placed downward row by row, and ids are numbered. -/
import ExportDiff.Flow.Basic

namespace ExportDiff.Flow

/-- Where the middle column lies and how far apart the rows are. -/
structure Grid where
  center : Coord
  spacing : Coord
  rounding : Rounding

structure Draft where
  grid : Grid
  /-- Where the next node goes. -/
  row : Coord
  nodeCount : Nat
  linkCount : Nat
  nodes : List Node
  links : List Link

/-- A node before it has an id and a place. -/
structure NodeSpec where
  kind : NodeKind
  name : String
  activity : String
  icon : Option String
  data : Data

def nodeId (n : Nat) : String := "node_" ++ toString n

def linkId (n : Nat) : String := "edge_" ++ toString n

/-- One row, as the steps of a flow take it. -/
def oneRow : Coord := ⟨1, true⟩

def halfRow : Coord := ⟨1 / 2, true⟩

namespace Draft

def start (grid : Grid) (row : Coord) : Draft := ⟨grid, row, 0, 0, [], []⟩

/-- A new node id, which may be placed later. -/
def newNodeId (d : Draft) : String × Draft :=
  (nodeId (d.nodeCount + 1), { d with nodeCount := d.nodeCount + 1 })

def newLinkId (d : Draft) : String × Draft :=
  (linkId (d.linkCount + 1), { d with linkCount := d.linkCount + 1 })

def setRow (d : Draft) (row : Coord) : Draft := { d with row := row }

def advance (d : Draft) (rows : Coord) : Draft :=
  { d with row := d.row.add d.grid.rounding (d.grid.spacing.mul d.grid.rounding rows) }

/-- Places a node under an id that is already there, and goes some rows down. -/
def placeAs (d : Draft) (id : String) (spec : NodeSpec) (offset rows : Coord) : Draft :=
  let node : Node := ⟨id, spec.kind, spec.name, spec.activity, spec.icon,
    d.grid.center.add d.grid.rounding offset, d.row, spec.data⟩
  { d with nodes := d.nodes ++ [node] }.advance rows

/-- Places a node under a new id. -/
def place (d : Draft) (spec : NodeSpec) (offset rows : Coord) : String × Draft :=
  let (id, d) := d.newNodeId
  (id, d.placeAs id spec offset rows)

def connect (d : Draft) (source target : String) (kind : LinkKind) (label : Option String) :
    String × Draft :=
  let (id, d) := d.newLinkId
  (id, { d with links := d.links ++ [⟨id, source, target, kind, label⟩] })

/-- Connects without asking for the id. -/
def link (d : Draft) (source target : String) (kind : LinkKind) (label : Option String) : Draft :=
  (d.connect source target kind label).2

def finish (d : Draft) (metadata : Metadata) : Flow := ⟨d.nodes, d.links, metadata⟩

end Draft

/-- Flows start at this row. -/
def firstRow : Coord := .ofInt 50

/-- How far aside the handlers of errors stand. -/
def handlerOffset : Coord := .ofInt 250

end ExportDiff.Flow
