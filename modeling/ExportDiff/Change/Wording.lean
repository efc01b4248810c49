/- Sentences about a change. -/
import ExportDiff.Artifact.Kind
import ExportDiff.Artifact.ObjectName
import ExportDiff.Change.Basic

namespace ExportDiff.Change
open Artifact Text

/-- Only the start of a connection string is looked at. -/
def connectionStringPattern : Pattern :=
  propertyPattern "ConnectionString" [.captureExactly 20 (isNot '"')]

def endpointPattern : Pattern := .of [.text "uriAbsoluteLocation>", .capture (isNot '<')]

def columnsPattern : Pattern :=
  .of ([.text "\"SAMPLE_COLUMN_HEADERS_KEY\"", .gap isBlank, .text ":", .gap isBlank, .text "\""] ++
    quotedValue)

/-- What a pattern gives back on the two sides, if it fits both and they differ. -/
def changed? (p : Pattern) (old new : String) : Option (String × String) :=
  match p.find? old, p.find? new with
  | some a, some b => if a ≠ b then some (a, b) else none
  | _, _ => none

/-- The changes of configuration that are recognised between two contents. -/
def specificChanges (old new path : String) : List String :=
  let connection :=
    if mentions old "ConnectionString" && mentions new "ConnectionString" &&
        (changed? connectionStringPattern old new).isSome then
      ["Database connection string was updated"]
    else []
  let procedure := match changed? procedurePattern old new with
    | some (a, b) => ["Stored procedure changed from \"" ++ a ++ "\" to \"" ++ b ++ "\""]
    | none => []
  let endpoint :=
    if (changed? endpointPattern old new).isSome then ["Service endpoint URL was updated"] else []
  let columns :=
    if (endsIn path [".json"] || mentions path "metadata") && (changed? columnsPattern old new).isSome then
      ["Data schema columns were modified"]
    else []
  connection ++ procedure ++ endpoint ++ columns

/-- A path whose sentence speaks of a transformation. -/
def readsAsMapping (path : String) : Bool := mentions path "mapping" || endsIn path [".xsl"]

/-- The sentence by kind of path, when no object is named. -/
def plainSentence (change : ChangeKind) (p : String) : String :=
  match change with
  | .added =>
      if readsAsMapping p then "New data transformation mapping was added"
      else if endsIn p [".wsdl"] then "New web service endpoint was configured"
      else "New configuration file was added"
  | .removed =>
      if readsAsMapping p then "Data transformation mapping was removed"
      else if endsIn p [".wsdl"] then "Web service endpoint was removed"
      else "Configuration file was removed"
  | .modified =>
      if readsAsMapping p then "Data transformation logic was updated"
      else if endsIn p [".wsdl"] then "Web service definition was modified"
      else if mentions p "connection" then "Connection settings were changed"
      else "Configuration values were updated"

def namedSentence (change : ChangeKind) (name : String) : String :=
  match change with
  | .added => "New component \"" ++ name ++ "\" was added to the integration"
  | .removed => "Component \"" ++ name ++ "\" was removed from the integration"
  | .modified => "Configuration for \"" ++ name ++ "\" was modified"

/-- The specific changes between two contents that are known and not empty. -/
def changesBetween (old new : Option String) (path : String) : List String :=
  match old.filter (· ≠ ""), new.filter (· ≠ "") with
  | some o, some n => specificChanges o n path
  | _, _ => []

/-- What changed, naming the object when its content tells it. -/
def describe (change : ChangeKind) (path : String) (old new : Option String) : String :=
  let p := lowercase path
  let specific := if change = .modified then changesBetween old new p else []
  if specific ≠ [] then join ". " specific
  else
    match (objectName? (if change = .removed then old else new)).filter (· ≠ "") with
    | some n => namedSentence change n
    | none => plainSentence change p

/-- A short headline; only the extension makes a mapping here. -/
def headline (path : String) (change : ChangeKind) (displayPath : Option String) : String :=
  let name := friendlyName ((displayPath.filter (· ≠ "")).getD path)
  let act := change.verb
  match kindBy hasMappingEnd path with
  | .flow => "Integration flow logic was " ++ act
  | .mapping => "Data mapping \"" ++ name ++ "\" was " ++ act
  | .connection => "Connection \"" ++ name ++ "\" settings were " ++ act
  | .lookup => "Lookup table data was " ++ act
  | .schedule => "Schedule timing was " ++ act
  | .tracking => "Business tracking fields were " ++ act
  | .webService => "Web service definition was " ++ act
  | .schema => "Data schema was " ++ act
  | .faultHandling => "Error handling was " ++ act
  | .configuration => "Configuration was " ++ act

end ExportDiff.Change
