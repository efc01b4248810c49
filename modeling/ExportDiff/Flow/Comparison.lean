/- Comparing two flows node by node: nodes are paired by name in any case. -/
import ExportDiff.Flow.Basic
import ExportDiff.Flow.Project
import ExportDiff.Json.Printer
import ExportDiff.Text.Lowercase

namespace ExportDiff.Flow
open Text

inductive Status where
  | added
  | removed
  | modified
  | unchanged
  deriving DecidableEq

def Status.all : List Status := [.added, .removed, .modified, .unchanged]

def Status.name : Status → String
  | .added => "added"
  | .removed => "removed"
  | .modified => "modified"
  | .unchanged => "unchanged"

/-- The last node of a name stands for it. -/
def namesake? (f : Flow) (name : String) : Option Node :=
  f.nodes.reverse.find? fun n => lowercase n.name = lowercase name

/-- The data of a node as one text, whatever the order of its keys. -/
def dataText (n : Node) : String := (Json.object n.data).canonical

def sameNode (m n : Node) : Bool :=
  m.activity = n.activity && m.kind = n.kind && dataText m = dataText n

def statusOf (n : Node) (namesake : Option Node) (missing : Status) : Status :=
  match namesake with
  | none => missing
  | some m => if sameNode n m then .unchanged else .modified

/-- The status of each node of a flow by its id. -/
def statuses (f other : Flow) (missing : Status) : List (String × Status) :=
  f.nodes.foldl (fun done n => putNamed n.id (statusOf n (namesake? other n.name) missing) done) []

structure Comparison where
  left : List (String × Status)
  right : List (String × Status)
  deriving DecidableEq

/-- Without both flows there is nothing to compare. -/
def compareFlows (left right : Option Flow) : Comparison :=
  match left, right with
  | some l, some r => ⟨statuses l r .removed, statuses r l .added⟩
  | _, _ => ⟨[], []⟩

def tally (changes : List (String × Status)) (s : Status) : Nat := (changes.filter (·.2 = s)).length

end ExportDiff.Flow
