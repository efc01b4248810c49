/- The kind of integration step that a file configures. -/
import ExportDiff.Artifact.ObjectName
import ExportDiff.Artifact.Path
import ExportDiff.Text.Word

namespace ExportDiff.Artifact
open Text

/-- The first key that an adapter's name mentions gives its label. -/
def adapterLabels : List (String × String) :=
  [("atpdatabase", "Database Adapter"), ("database", "Database Adapter"),
   ("oracle/db", "Database Adapter"), ("sftp", "SFTP Adapter"), ("ftp", "FTP Adapter"),
   ("file", "File Adapter"), ("rest", "REST Adapter"), ("soap", "SOAP Adapter"),
   ("jms", "JMS Adapter"), ("kafka", "Kafka Adapter"), ("mq", "MQ Adapter"),
   ("oracleerp", "Oracle ERP Adapter"), ("oraclecrm", "Oracle CRM Adapter"),
   ("oic", "Integration Invoke"), ("salesforce", "Salesforce Adapter"), ("sap", "SAP Adapter"),
   ("workday", "Workday Adapter"), ("servicenow", "ServiceNow Adapter"),
   ("netsuite", "NetSuite Adapter")]

def adapterLabel? (adapter : String) : Option String :=
  let a := lowercase adapter
  (adapterLabels.find? fun l => mentions a l.1).map (·.2)

def adapterPattern : Pattern :=
  .of ([.anyCase "adapter", .gap isBlank, .text "=", .gap isBlank, .text "\""] ++ quotedValue)

/-- The start of a tag of this name in any case, with any prefix or none. -/
def tagStart (name : String) (ending : List Piece) : Pattern :=
  .oneOf [[.text "<", .run isWordChar, .text ":", .anyCase name] ++ ending,
          [.text "<", .anyCase name] ++ ending]

def isTagEnd (c : Char) : Bool := isBlank c || c == '>' || c == '/'

/-- The activities of a process, in order of preference. -/
def activityLabels : List (List String × String) :=
  [(["invoke"], "Invoke"), (["receive"], "Receive"), (["reply"], "Reply"), (["assign"], "Assign"),
   (["switch", "if"], "Switch"), (["while"], "While Loop"), (["foreach", "repeatuntil"], "For Each"),
   (["throw"], "Throw"), (["catch", "faulthandlers"], "Catch"), (["scope"], "Scope"),
   (["sequence"], "Sequence"), (["flow"], "Parallel Flow"), (["pick"], "Pick"), (["wait"], "Wait")]

def hasTag (content name : String) : Bool :=
  ((tagStart name [.exactly 1 isTagEnd]).search content).isSome

def activityLabel? (content : String) : Option String :=
  (activityLabels.find? fun a => a.1.any (hasTag content)).map (·.2)

/-- A stage file by what is done with it. -/
def stageLabel (content : String) : String :=
  if mentions content "WriteFile" || mentions content "write" then "Stage File Write"
  else if mentions content "ReadFile" || mentions content "read" then "Stage File Read"
  else if mentions content "ListFile" || mentions content "list" then "Stage File List"
  else "Stage File"

/-- What is left when neither an adapter nor an activity tells the kind. -/
def plainLabel? (content path : String) : Option String :=
  if mentions content "StageFile" || mentions content "stage-file" || mentions path "stagefile" then
    some (stageLabel content)
  else if mentions content "notification" || mentions content "email" then some "Notification"
  else if hasMappingEnd path then some "Data Mapping"
  else if mentions (lowercase content) "javascript" then some "JavaScript"
  else if mentions (lowercase content) "callback" then some "Callback"
  else if mentions content "<wait" || mentions content "Wait" then some "Wait"
  else if mentions path "schedule" || mentions content "schedule" then some "Schedule"
  else none

def stepKind? (content : Option String) (path : String) : Option String :=
  match content.filter (· ≠ "") with
  | none => none
  | some c =>
      let p := lowercase path
      let isProcess := mentions p "orchestration" || ((tagStart "invoke" []).search c).isSome
      ((adapterPattern.find? c).bind adapterLabel?).or <|
        (if isProcess then activityLabel? c else none).or (plainLabel? c p)

end ExportDiff.Artifact
