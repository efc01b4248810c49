/- Laying out the content of a file by its kind before its lines are compared. -/
import ExportDiff.Artifact.Path
import ExportDiff.Json.Parser
import ExportDiff.Json.Printer
import ExportDiff.Pretty.Markup

namespace ExportDiff.Pretty
open Text

def startsJson (s : List Char) : Bool := s.head? = some '\x7b' || s.head? = some '['

/-- Text that is no JSON object or list stays as it is. -/
def json (s : String) : String :=
  let t := trim s.toList
  if startsJson t then
    match Json.parse? (String.ofList t) with
    | some v => v.print ⟨true, true⟩
    | none => s
  else s

/-- The extension decides first, then how the text begins. -/
def content (path s : String) : String :=
  let ext := Artifact.extension path
  let t := trim s.toList
  if [".xml", ".xsl", ".xslt", ".wsdl", ".xsd", ".jca", ".bpel"].contains ext || t.head? = some '<' then
    markup s
  else if ext = ".json" || startsJson t then json s
  else s

end ExportDiff.Pretty
