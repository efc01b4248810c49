/- The flow of a definition in either form. -/
import ExportDiff.Flow.ProcessLayout
import ExportDiff.Flow.ProjectLayout
import ExportDiff.Xml.Document

namespace ExportDiff.Flow
open Xml

inductive Form where
  | project
  | process
  deriving DecidableEq

/-- How the flow of a text was found. -/
inductive Origin where
  /-- A form recognised the document and found nodes in it. -/
  | found (form : Form)
  /-- No form found nodes. -/
  | bare
  /-- The text is no document that can be read. -/
  | unreadable (e : Xml.Error)
  deriving DecidableEq

structure Parsed where
  flow : Flow
  origin : Origin

/-- The first form that finds nodes decides; else the first that recognises the document. -/
def ofRoot (root : Element) : Parsed :=
  match projectFlow? root, processFlow? root with
  | some f, g =>
      if !f.isEmpty then ⟨f, .found .project⟩
      else match g with
        | some h => if !h.isEmpty then ⟨h, .found .process⟩ else ⟨f, .bare⟩
        | none => ⟨f, .bare⟩
  | none, some h => if !h.isEmpty then ⟨h, .found .process⟩ else ⟨h, .bare⟩
  | none, none => ⟨.empty unknownName, .bare⟩

/-- A text that is no document gives an empty flow that says so. -/
def parse (xml : String) : Parsed :=
  match Xml.read xml with
  | .ok root => ofRoot root
  | .error e => ⟨.empty "Parse Error", .unreadable e⟩

def parseFlow (xml : String) : Flow := (parse xml).flow

end ExportDiff.Flow
