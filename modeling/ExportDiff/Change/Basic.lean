/- Kinds of change, how much they matter, and the areas they belong to. -/

namespace ExportDiff.Change

inductive ChangeKind where
  | added
  | removed
  | modified
  deriving DecidableEq

def ChangeKind.all : List ChangeKind := [.added, .removed, .modified]

def ChangeKind.name : ChangeKind → String
  | .added => "Added"
  | .removed => "Removed"
  | .modified => "Modified"

/-- What happened to the file, within a sentence. -/
def ChangeKind.verb : ChangeKind → String
  | .added => "added"
  | .removed => "removed"
  | .modified => "updated"

inductive Severity where
  | high
  | medium
  | low
  | info
  deriving DecidableEq

def Severity.all : List Severity := [.high, .medium, .low, .info]

def Severity.name : Severity → String
  | .high => "High"
  | .medium => "Medium"
  | .low => "Low"
  | .info => "Info"

/-- The place in a report: what matters most comes first. -/
def Severity.rank : Severity → Nat
  | .high => 0
  | .medium => 1
  | .low => 2
  | .info => 3

def Severity.isMeaningful : Severity → Bool
  | .high | .medium => true
  | .low | .info => false

/-- The functional area of a file. -/
inductive Category where
  | connections
  | mappings
  | flowLogic
  | lookups
  | configuration
  | other
  deriving DecidableEq

def Category.all : List Category :=
  [.connections, .mappings, .flowLogic, .lookups, .configuration, .other]

def Category.name : Category → String
  | .connections => "connections"
  | .mappings => "mappings"
  | .flowLogic => "flowLogic"
  | .lookups => "lookups"
  | .configuration => "configuration"
  | .other => "other"

end ExportDiff.Change
