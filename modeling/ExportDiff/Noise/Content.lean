/- Rules that replace what every export generates anew, identifiers, stamps and prefixes; and contents
without it, for telling whether two versions really differ. -/
import ExportDiff.Artifact.Path
import ExportDiff.Text.CharClass
import ExportDiff.Text.Pattern

namespace ExportDiff.Noise
open Text

structure Rule where
  pattern : Pattern
  replacement : String

def Rule.apply (r : Rule) (s : List Char) : List Char :=
  r.pattern.replaceAll r.replacement.toList s

/-- Each rule works on what the rule before it left. -/
def applyRules (rules : List Rule) (s : List Char) : List Char :=
  rules.foldl (fun t r => r.apply t) s

def isHex (c : Char) : Bool := ('a' ≤ c && c ≤ 'f') || ('0' ≤ c && c ≤ '9')

def isHexOrDash (c : Char) : Bool := isHex c || c == '-'

/-- A keyword and the run of its identifier become the keyword and an `X`. -/
def idRule (keyword : String) (inRun : Char → Bool) : Rule :=
  ⟨.of [.text keyword, .run inRun], keyword ++ "X"⟩

/-- The same for a keyword that may not follow an ASCII letter or digit. -/
def wordIdRule (keyword : String) (inRun : Char → Bool) : Rule :=
  ⟨⟨Char.isAlphanum, [[.text keyword, .run inRun]]⟩, keyword ++ "X"⟩

/-- Generated identifiers, in paths and in contents. -/
def idRules : List Rule :=
  [idRule "processor_" isDigit, idRule "resourcegroup_" isDigit, idRule "application_" isDigit,
   idRule "inbound_" isDigit, idRule "outbound_" isDigit, idRule "itg_" isHexOrDash,
   wordIdRule "req_" isHex, wordIdRule "res_" isHex]

/-- A version number or a numbered copy, which only paths carry. -/
def pathRules : List Rule :=
  [⟨.of [.text "_", .exactly 2 isDigit, .text ".", .exactly 2 isDigit, .text ".", .exactly 4 isDigit], ""⟩,
   ⟨.of [.gap isBlank, .text "(", .run isDigit, .text ")"], ""⟩]

/-- An attribute of this name, with its value in double quotes, is left empty. -/
def stampRule (name : String) : Rule :=
  ⟨.of [.text (name ++ "=\""), .gap (isNot '"'), .text "\""], name ++ "=\"\""⟩

/-- Attributes and prefixes that are written anew in every XML document. -/
def xmlRules : List Rule :=
  [stampRule "timestamp", stampRule "createdTime", stampRule "modifiedTime",
   stampRule "lastUpdatedTime",
   ⟨.oneOf [[.text "xml:id=\"", .gap (isNot '"'), .text "\""],
            [.text "xml:id='", .gap (isNot '\''), .text "'"]], ""⟩,
   ⟨.of [.text "generatedId=\"", .gap (isNot '"'), .text "\""], ""⟩,
   ⟨.of [.text "xmlns:orajs", .run isDigit, .text "=\"", .gap (isNot '"'), .text "\""], ""⟩,
   ⟨.of [.text "orajs", .run isDigit, .text ":"], "orajs:"⟩]

/-- XML without stamps, identifiers, and layout. -/
def bareXml (content : String) : String :=
  String.ofList (trim (collapseBlanks (applyRules idRules (applyRules xmlRules content.toList))))

/-- XML files lose all noise; in any other file only identifiers are replaced. -/
def bareContent (content path : String) : String :=
  if Artifact.isXml path then bareXml content
  else String.ofList (applyRules idRules content.toList)

end ExportDiff.Noise
