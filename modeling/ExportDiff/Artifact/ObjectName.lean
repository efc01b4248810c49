/- The name of the object that a configuration file describes. -/
import ExportDiff.Json.Parser
import ExportDiff.Json.Search
import ExportDiff.Text.CharClass
import ExportDiff.Text.Pattern
import ExportDiff.Text.Search

namespace ExportDiff.Artifact
open Text

/-- The value behind a name, in double quotes. -/
def quotedValue : List Piece := [.capture (isNot '"'), .text "\""]

/-- The value of a property whose name is given, within its tag. -/
def propertyPattern (name : String) (value : List Piece) : Pattern :=
  .of ([.text (name ++ "\""), .stretch (isNot '>'), .text "value=\""] ++ value)

def procedurePattern : Pattern := propertyPattern "ProcedureName" quotedValue

/-- Tried first: the configuration of an adapter, a stored procedure, a table. -/
def leadingNames : List Pattern :=
  [.of ([.text "adapter-config", .run isBlank, .text "name=\""] ++ quotedValue),
   procedurePattern, propertyPattern "TableName" quotedValue]

def factoryPattern : Pattern :=
  .of ([.text "connection-factory", .run isBlank, .text "location=\""] ++ quotedValue)

def schemaElement (space : String) : List Piece :=
  [.text (space ++ ":element"), .run isBlank, .text "name=\""] ++ quotedValue

/-- Tried last: a service operation, a schema element, the end of a target namespace. -/
def trailingNames : List Pattern :=
  [.of (.text "operation=\"" :: quotedValue),
   .oneOf [schemaElement "xsd", schemaElement "xs"],
   .of [.text "targetNamespace=\"", .stretch (isNot '"'), .text "/",
     .capture (fun c => c != '"' && c != '/'), .text "\""]]

/-- The last segment of a connection's location, slashes at its end apart. -/
def connectionName (location : String) : String :=
  String.ofList (lastPiece '/' (location.toList.reverse.dropWhile (· = '/')).reverse)

def cutExtension (s : List CodePoint) : List CodePoint :=
  match beforeLast? (Json.codePoint '.') s with
  | some stem => if stem.length + 1 < s.length then stem else s
  | none => s

/-- The record that a metadata file is about, else its sample file without the extension. -/
def metadataName? (content : String) : Option (List CodePoint) :=
  (Json.parse? content).bind fun v =>
    match v.find? "RECORD_NAME_KEY" with
    | some s => some s
    | none => (v.find? "SAMPLE_FILE_NAME_KEY").map cutExtension

/-- The first name that some pattern finds; metadata is looked into when nothing else fits. A name is
made of characters, so a lone surrogate in one from metadata counts as the replacement character. -/
def objectName? (content : Option String) : Option String :=
  match content with
  | none => none
  | some c =>
      let connection := (factoryPattern.find? c).map connectionName
      (leadingNames.findSome? (·.find? c)).or <| (connection.filter (· ≠ "")).or <|
        (trailingNames.findSome? (·.find? c)).or <|
          if (trimStart c.toList).head? = some '\x7b' then (metadataName? c).map Json.text else none

end ExportDiff.Artifact
