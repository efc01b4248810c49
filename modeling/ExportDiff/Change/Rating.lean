/- How much a change matters, and why: the first rule that fits the path decides. -/
import ExportDiff.Artifact.Path
import ExportDiff.Change.Basic
import ExportDiff.Noise.Content

namespace ExportDiff.Change
open Artifact Text

structure Rating where
  severity : Severity
  reason : String

def categoryOf (path : String) : Category :=
  let p := lowercase path
  if isConnection p then .connections
  else if isMapping p then .mappings
  else if isFlow p || mentions p "bpel" then .flowLogic
  else if isLookup p then .lookups
  else if mentions p "schedule" || mentions p "tracking" || endsIn p [".properties"] then .configuration
  else .other

/-- A file on one side only; one that is not added is removed. -/
def ratePresence (path : String) (change : ChangeKind) : Rating :=
  let p := lowercase path
  let action := if change = .added then "added" else "removed"
  if isFlow p then
    ⟨.high, "Integration flow was " ++ action ++ ". This controls the main processing logic."⟩
  else if isMapping p then
    ⟨if change = .removed then .high else .medium,
      "Data transformation was " ++ action ++ ". This affects how data is converted between systems."⟩
  else if isConnection p then
    ⟨.medium, "Connection configuration was " ++ action ++
      ". This affects connectivity to external systems."⟩
  else if endsIn p [".wsdl", ".xsd"] then
    ⟨.medium, "Service definition was " ++ action ++ ". This may affect API compatibility."⟩
  else if isLookup p then
    ⟨.low, "Lookup data was " ++ action ++ ". Used for value translation."⟩
  else if mentions p "schedule" then
    ⟨.low, "Schedule was " ++ action ++ ". This controls when the integration runs."⟩
  else ⟨.info, "Supporting file was " ++ action ++ "."⟩

/-- Both contents are known and differ as XML without noise. -/
def differAsXml : Option String → Option String → Bool
  | some l, some r => Noise.bareXml l ≠ Noise.bareXml r
  | _, _ => false

/-- A file on both sides; a mapping is high only when its contents are known to differ. -/
def rateModification (path : String) (left right : Option String) : Rating :=
  let p := lowercase path
  if isFlow p then
    ⟨.high, "Integration flow logic changed. The processing steps or decision logic was modified."⟩
  else if isMapping p then
    if differAsXml left right then
      ⟨.high, "Data transformation logic changed. The rules for converting data were modified."⟩
    else ⟨.medium, "Data mapping updated with minor changes."⟩
  else if isConnection p then
    ⟨.medium, "Connection settings changed. Endpoint URLs or credentials may have been updated."⟩
  else if endsIn p [".wsdl"] then
    ⟨.medium, "Web service definition changed. The API contract may have been updated."⟩
  else if endsIn p [".xsd"] then
    ⟨.medium, "Data schema changed. The expected data structure was modified."⟩
  else if isLookup p then
    ⟨.low, "Lookup values updated. Reference data for value translation was changed."⟩
  else if mentions p "schedule" then
    ⟨.low, "Schedule modified. The timing for when this integration runs was changed."⟩
  else if mentions p "tracking" then
    ⟨.low, "Tracking fields updated. Business identifiers for monitoring were changed."⟩
  else if endsIn p [".properties"] then ⟨.low, "Configuration values changed."⟩
  else if isFaultHandling p then
    ⟨.low, "Error handling changed. How failures are handled was modified."⟩
  else ⟨.info, "Supporting file modified."⟩

end ExportDiff.Change
