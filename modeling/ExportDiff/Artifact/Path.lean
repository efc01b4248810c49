/- What an archive path says about the artifact it names. -/
import ExportDiff.Text.Lowercase
import ExportDiff.Text.Search

namespace ExportDiff.Artifact
open Text

/-- The last dot of the last segment and what follows it; leading dots start no extension. -/
def extension (path : String) : String :=
  let name := lastPiece '/' path.toList
  match beforeLast? '.' name with
  | some stem =>
      if stem.any (· ≠ '.') then lowercase (String.ofList (name.drop stem.length)) else ""
  | none => ""

/-- The path as its last segment alone. -/
def fileName (path : String) : String := String.ofList (lastPiece '/' path.toList)

def isXml (path : String) : Bool :=
  endsIn (lowercase path) [".xml", ".xsl", ".xslt", ".wsdl", ".xsd", ".jca"]

/-- A file that can hold a flow definition is kept whatever its length. -/
def holdsFlow (path : String) : Bool :=
  let p := lowercase path
  mentions p "project.xml" || mentions p "orchestration" || endsIn p [".bpel"]

def isFlow (path : String) : Bool := mentions path "orchestration"

def hasMappingEnd (path : String) : Bool := endsIn path [".xsl", ".xslt"]

def isMapping (path : String) : Bool := hasMappingEnd path || mentions path "mapping"

def isConnection (path : String) : Bool := mentions path "connection" || endsIn path [".jca"]

def isLookup (path : String) : Bool := mentions path "lookup" || mentions path "dvm"

def isFaultHandling (path : String) : Bool := mentions path "fault" || mentions path "error"

end ExportDiff.Artifact
