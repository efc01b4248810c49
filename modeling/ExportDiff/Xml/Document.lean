/- Reading a whole document into its root element, with namespaces checked and then dropped. -/
import ExportDiff.Text.CharClass
import ExportDiff.Text.Lines
import ExportDiff.Xml.Doctype
import ExportDiff.Xml.Element
import ExportDiff.Xml.Token

namespace ExportDiff.Xml

def xmlNamespace : List Char := "http://www.w3.org/XML/1998/namespace".toList

def xmlnsNamespace : List Char := "http://www.w3.org/2000/xmlns/".toList

/-- The prefixes in force, the innermost first; the default namespace has no prefix. -/
abbrev Scope := List (Option (List Char) × List Char)

def Scope.outermost : Scope := [(some "xml".toList, xmlNamespace)]

def Scope.lookup (sc : Scope) (space : Option (List Char)) : Option (List Char) :=
  (sc.find? (·.1 = space)).map (·.2)

/-- The prefix that an attribute declares, if it declares one. -/
def declaredPrefix? (q : QName) : Option (Option (List Char)) :=
  if q = ⟨none, "xmlns".toList⟩ then some none
  else if q.space = some "xmlns".toList then some (some q.base)
  else none

/-- A prefix may be bound to a namespace: the two reserved ones only as they are, and no prefix
to nothing. -/
def mayBind (space : Option (List Char)) (uri : List Char) : Bool :=
  !(uri = [] && space.isSome) && space ≠ some "xmlns".toList &&
    (space = some "xml".toList) == (uri = xmlNamespace : Bool) && uri ≠ xmlnsNamespace &&
    !uri.contains '\x7d'

/-- The scope inside a tag with these attributes. -/
def Scope.enter (sc : Scope) (attributes : List (QName × List Char)) : Option Scope :=
  attributes.foldlM (fun sc a =>
    match declaredPrefix? a.1 with
    | some p => if mayBind p a.2 then some ((p, a.2) :: sc) else none
    | none => some sc) sc

/-- No two of these are equal. -/
def allDistinct {α} [DecidableEq α] : List α → Bool
  | [] => true
  | x :: xs => !xs.contains x && allDistinct xs

/-- The attributes by local name, unless one has an unknown prefix or two are the same one. A later
attribute of the same local name takes the place of the earlier. -/
def localAttributes (sc : Scope) (attributes : List (QName × List Char)) :
    Option (List (String × String)) :=
  let plain := attributes.filter fun a => (declaredPrefix? a.1).isNone
  if !allDistinct (attributes.map (·.1)) then none
  else
    let expand (a : QName × List Char) : Option (List Char × List Char) :=
      match a.1.space with
      | some p => (sc.lookup (some p)).map (·, a.1.base)
      | none => some ([], a.1.base)
    (plain.mapM expand).bind fun names =>
      if allDistinct names then
        some (plain.foldl (fun done a => put (String.ofList a.1.base) (String.ofList a.2) done) [])
      else none
where
  put (name value : String) : List (String × String) → List (String × String)
    | [] => [(name, value)]
    | (n, v) :: rest => if n = name then (n, value) :: rest else (n, v) :: put name value rest

/-- An element that is still open; its children are held backwards. -/
structure Open where
  written : List Char
  tag : String
  attributes : List (String × String)
  scope : Scope
  text : List Char
  children : List Element

def Open.element (o : Open) : Element :=
  ⟨o.tag, o.attributes, String.ofList (Text.trim o.text), o.children.reverse⟩

/-- A document while it is read: the open elements, the innermost first, or the finished root. -/
inductive Reading where
  | before
  | inside (top : Open) (outer : List Open)
  | finished (root : Element)

def Reading.addElement (e : Element) : List Open → Reading
  | [] => .finished e
  | o :: os => .inside { o with children := e :: o.children } os

def Reading.addChars (cs : List Char) : Reading → Option Reading
  | .inside o os => some (.inside (if o.children.isEmpty then { o with text := o.text ++ cs } else o) os)
  | _ => none

def Reading.open? (outer : List Open) (q : QName) (atts : List (QName × List Char)) (closed : Bool) :
    Option Reading :=
  let sc := match outer with
    | o :: _ => o.scope
    | [] => Scope.outermost
  (sc.enter atts).bind fun inner =>
    (localAttributes inner atts).bind fun las =>
      if (q.space.isSome && (inner.lookup q.space).isNone) then none
      else
        let o : Open := ⟨q.written, String.ofList q.base, las, inner, [], []⟩
        some (if closed then .addElement o.element outer else .inside o outer)

def Reading.step : Reading → Token → Option Reading
  | .before, .start q atts closed => open? [] q atts closed
  | .inside o os, .start q atts closed => open? (o :: os) q atts closed
  | .inside o os, .stop w => if o.written = w then some (.addElement o.element os) else none
  | r, .given cs => r.addChars cs
  | .inside o os, .chars cs => (Reading.inside o os).addChars cs
  | r, .chars cs => if cs.all isSpace then some r else none
  | _, _ => none

def root? (tokens : List Token) : Option Element :=
  (tokens.foldlM Reading.step .before).bind fun r =>
    match r with
    | .finished e => some e
    | _ => none

/-- A pseudo-attribute of the declaration: white space, a name, and a quoted value of few characters. -/
def pseudoAttribute? (s : List Char) : Option (List Char × List Char × List Char) :=
  let t := skipSpace s
  let name := t.takeWhile fun c => c ≠ '=' && !isSpace c
  if !s.head?.any isSpace || name = [] then none
  else (strip? ['='] (skipSpace (t.drop name.length))).bind fun u =>
    (literal? (skipSpace u)).bind fun (v, r) =>
      if v.all fun c => c.isAlphanum || c == '.' || c == '-' || c == '_' then some (name, v, r) else none

/-- Whether the document stands alone, from the part of the declaration behind the encoding. -/
def standalone? (s : List Char) : Option Bool :=
  if skipSpace s = [] then some false
  else (pseudoAttribute? s).bind fun (n, v, r) =>
    if n = "standalone".toList && skipSpace r = [] then
      if v = "yes".toList then some true else if v = "no".toList then some false else none
    else none

/-- The XML declaration between its marks: a version, then perhaps an encoding, then perhaps
whether the document stands alone. -/
def xmlDeclaration? (s : List Char) : Option Bool :=
  (pseudoAttribute? s).bind fun (n, _, r) =>
    if n ≠ "version".toList then none
    else match pseudoAttribute? r with
      | some (m, v, t) =>
          if m = "encoding".toList then if v.head?.any Char.isAlpha then standalone? t else none
          else standalone? r
      | none => standalone? r

/-- What may precede the root: white space, comments, instructions, and one document type. -/
def prolog (standalone : Bool) (doctype : Option Doctype) (s : List Char) :
    Option (Doctype × List Char) :=
  match s with
  | [] => none
  | c :: t =>
      if isSpace c then prolog standalone doctype t
      else
        let step := match c :: t with
          | '<' :: '!' :: '-' :: '-' :: u => (comment? u).map (doctype, ·)
          | '<' :: '!' :: u =>
              if doctype.isSome then none
              else (strip? "DOCTYPE".toList u).bind fun v =>
                (doctype? standalone v).map fun (d, r) => (some d, r)
          | '<' :: '?' :: u => (instruction? u).map (doctype, ·)
          | _ => none
        match step with
        | some (d, r) => if r.length ≤ t.length then prolog standalone d r else none
        | none => if (c :: t).head? = some '<' && t.head?.any isNameStart then
            some (doctype.getD (.empty standalone), c :: t) else none
termination_by s.length

/-- The declaration at the very start, if there is one, and the rest. -/
def opening (s : List Char) : Option (Bool × List Char) :=
  match strip? "<?xml".toList s with
  | some r =>
      if r.head?.any isSpace then
        (until? "?>".toList r).bind fun (t, rest) => (xmlDeclaration? t).map (·, rest)
      else some (false, s)
  | none => some (false, s)

/-- Elements nested deeper than this are refused. It stands for the bound on nested calls of a run: of a
thousand, reading takes two for each level. Drawing takes more of them for steps within steps, so that
a run refuses a text whose steps are nested some 330 levels deep, which is drawn here as any other. -/
def maxDepth : Nat := 480

inductive Error where
  | malformed
  | tooDeep
  deriving DecidableEq

/-- The root of a well-formed document; a byte order mark in front is passed over. -/
def read (s : String) : Except Error Element :=
  let cs := s.toList
  let cs := if cs.head? = some '\uFEFF' then cs.drop 1 else cs
  let root := if cs.all isLegal then
      (opening (Text.unifyBreaks cs)).bind fun (standalone, r) =>
        (prolog standalone none r).bind fun (d, body) =>
          (tokens? d body).bind fun ts => (resolveTokens d (d.entities.length + 1) ts).bind root?
    else none
  match root with
  | some e => if e.depth ≤ maxDepth then .ok e else .error .tooDeep
  | none => .error .malformed

end ExportDiff.Xml
