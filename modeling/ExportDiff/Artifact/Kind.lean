/- The kind of artifact that a path names, as it is shown to a reader. -/
import ExportDiff.Artifact.Path
import ExportDiff.Text.CharClass
import ExportDiff.Text.Pattern

namespace ExportDiff.Artifact
open Text

inductive Kind where
  | flow
  | mapping
  | connection
  | lookup
  | schedule
  | tracking
  | webService
  | schema
  | faultHandling
  | configuration
  deriving DecidableEq

/-- The first kind that fits; `mapping` is the test for mappings. -/
def kindBy (mapping : String → Bool) (path : String) : Kind :=
  let p := lowercase path
  if isFlow p then .flow
  else if mapping p then .mapping
  else if isConnection p then .connection
  else if isLookup p then .lookup
  else if mentions p "schedule" then .schedule
  else if mentions p "tracking" then .tracking
  else if endsIn p [".wsdl"] then .webService
  else if endsIn p [".xsd"] then .schema
  else if isFaultHandling p then .faultHandling
  else .configuration

def Kind.label : Kind → String
  | .flow => "Integration Flow"
  | .mapping => "Data Mapping"
  | .connection => "Connection"
  | .lookup => "Lookup Table"
  | .schedule => "Schedule"
  | .tracking => "Tracking"
  | .webService => "Web Service"
  | .schema => "Data Schema"
  | .faultHandling => "Error Handling"
  | .configuration => "Configuration"

def kindLabel (path : String) : String := (kindBy isMapping path).label

def isLowerAscii (c : Char) : Bool := 'a' ≤ c && c ≤ 'z'

def isUpperAscii (c : Char) : Bool := 'A' ≤ c && c ≤ 'Z'

/-- A blank between a small letter and the capital behind it. -/
def splitHumps : List Char → List Char
  | [] => []
  | c :: s =>
      if isLowerAscii c && s.head?.any isUpperAscii then c :: ' ' :: splitHumps s
      else c :: splitHumps s

/-- The file extensions that a display name leaves out. -/
def hiddenEnd : Pattern :=
  .oneOf (["xml", "xsl", "xslt", "jca", "wsdl", "xsd", "properties"].map fun e =>
    [.text ".", .anyCase e, .atEnd])

def isAnyHex (c : Char) : Bool := c.isDigit || ('a' ≤ c.toLower && c.toLower ≤ 'f')

/-- A generated message identifier. -/
def messageId : Pattern :=
  .oneOf [[.anyCase "req_", .run isAnyHex], [.anyCase "res_", .run isAnyHex]]

def messageName : String := "Request/Response"

/-- The last segment as words; a message identifier at its start has a name of its own. -/
def friendlyName (path : String) : String :=
  let name := hiddenEnd.replaceAll [] (lastPiece '/' path.toList)
  let name := match messageId.matchAt none name with
    | some m => messageName.toList ++ m.rest
    | none => name
  String.ofList (trim (splitHumps (name.map fun c => if c = '_' then ' ' else c)))

/-- The object's own name, else a name from the path that says something, else the kind. -/
def displayName (path : String) (objectName : Option String) : String :=
  match objectName.filter (· ≠ "") with
  | some n => n
  | none =>
      let name := friendlyName path
      if name ≠ messageName && 2 < name.length then name else kindLabel path

end ExportDiff.Artifact
