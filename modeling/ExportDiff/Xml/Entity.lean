/- General entities, and what attribute values become once their references are resolved. -/
import ExportDiff.Xml.Scan

namespace ExportDiff.Xml

/-- What a declared entity stands for. -/
inductive EntityBody where
  | replacement (text : List Char)
  | external
  | unparsed
  deriving DecidableEq

structure AttributeDecl where
  element : List Char
  name : List Char
  /-- Blanks in a value of any type but character data only separate its tokens. -/
  tokenized : Bool
  initial : Option (List Char)

/-- What a document type declares. `incomplete` says that declarations stand elsewhere, and
`reading` that those seen here still count. -/
structure Doctype where
  entities : List (List Char × EntityBody)
  attributes : List AttributeDecl
  incomplete : Bool
  reading : Bool
  standalone : Bool

namespace Doctype

def empty (standalone : Bool) : Doctype := ⟨[], [], false, true, standalone⟩

def entity? (d : Doctype) (name : List Char) : Option EntityBody :=
  (d.entities.find? (·.1 = name)).map (·.2)

/-- An unknown entity may be declared elsewhere. -/
def mayBeElsewhere (d : Doctype) : Bool := d.incomplete && !d.standalone

/-- The first declaration of an entity counts; the predefined ones stay as they are. -/
def declareEntity (d : Doctype) (name : List Char) (body : EntityBody) : Doctype :=
  if d.reading && (predefined? name).isNone && (d.entity? name).isNone then
    { d with entities := d.entities ++ [(name, body)] }
  else d

def attribute? (d : Doctype) (element name : List Char) : Option AttributeDecl :=
  d.attributes.find? fun a => a.element = element && a.name = name

/-- The first declaration of an attribute counts. -/
def declareAttribute (d : Doctype) (a : AttributeDecl) : Doctype :=
  if d.reading && (d.attribute? a.element a.name).isNone then
    { d with attributes := d.attributes ++ [a] }
  else d

/-- Declarations behind a reference to declarations kept elsewhere no longer count, unless the
document stands alone. -/
def skipElsewhere (d : Doctype) : Doctype := { d with incomplete := true, reading := d.standalone }

end Doctype

/-- A part of an attribute value. -/
inductive ValuePart where
  | char (c : Char)
  | entity (name : List Char)

/-- The parts of a value; white space becomes blanks, and a start of a tag is refused. -/
def valueParts (s : List Char) : Option (List ValuePart) :=
  match s with
  | [] => some []
  | '<' :: _ => none
  | '&' :: t =>
      (reference? t).bind fun (ref, r) =>
        if r.length ≤ t.length then
          (valueParts r).map fun ps =>
            match ref with
            | .char c => .char c :: ps
            | .entity n => match predefined? n with
              | some c => .char c :: ps
              | none => .entity n :: ps
        else none
  | c :: t => (valueParts t).map (.char (if isSpace c then ' ' else c) :: ·)
termination_by s.length

/-- Replaces entities, nested at most `level` deep: an entity nested deeper refers to itself. -/
def resolveParts (d : Doctype) (level : Nat) (parts : List ValuePart) : Option (List Char) :=
  match level, parts with
  | _, [] => some []
  | level, .char c :: ps => (resolveParts d level ps).map (c :: ·)
  | 0, .entity _ :: _ => none
  | level + 1, .entity n :: ps =>
      match d.entity? n with
      | some (.replacement text) =>
          (valueParts text).bind fun inner =>
            (resolveParts d level inner).bind fun cs =>
              (resolveParts d (level + 1) ps).map (cs ++ ·)
      | some _ => none
      | none => if d.mayBeElsewhere then resolveParts d (level + 1) ps else none
termination_by (level, parts.length)

/-- Blanks at the ends go, and runs of blanks become one. -/
def tokenizeBlanks : List Char → List Char
  | [] => []
  | c :: s =>
      let r := tokenizeBlanks s
      if c = ' ' && (r.head? = some ' ' || r = []) then r else c :: r

def attributeValue (d : Doctype) (tokenized : Bool) (written : List Char) : Option (List Char) :=
  ((valueParts written).bind (resolveParts d (d.entities.length + 1))).map fun v =>
    if tokenized then tokenizeBlanks (v.dropWhile (· = ' ')) else v

/-- The replacement text of an entity: references to characters are resolved, those to entities
only checked. -/
def entityText (s : List Char) : Option (List Char) :=
  match s with
  | [] => some []
  | '%' :: _ => none
  | '&' :: t =>
      (reference? t).bind fun (ref, r) =>
        if r.length ≤ t.length then
          (entityText r).map fun cs =>
            match ref with
            | .char c => c :: cs
            | .entity n => '&' :: n ++ ';' :: cs
        else none
  | c :: t => (entityText t).map (c :: ·)
termination_by s.length

end ExportDiff.Xml
