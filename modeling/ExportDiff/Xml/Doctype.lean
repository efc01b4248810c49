/- Reading the document type: entities and attribute defaults count, all else is checked only. -/
import ExportDiff.Xml.Entity

namespace ExportDiff.Xml

/-- A token of a declaration; `quantified` is a name before one of `?`, `*`, and `+`. -/
inductive DeclToken where
  | name (q : QName)
  | nmtoken (s : List Char)
  | quantified (q : QName)
  | literal (s : List Char)
  | percent
  | reserved (s : List Char)
  | openGroup
  | closeGroup (mark : Option Char)
  | comma
  | bar

def DeclToken.isWord (t : DeclToken) (s : String) : Bool :=
  match t with
  | .name ⟨none, w⟩ => w = s.toList
  | _ => false

def isQuantifier (c : Char) : Bool := c == '?' || c == '*' || c == '+'

/-- A name ends before white space, a mark, or a reference. -/
def endsName (r : List Char) : Bool :=
  r.head?.any fun c => isSpace c || c == '>' || c == ')' || c == ',' || c == '|' || c == '[' || c == '%'

def isTokenChar (c : Char) : Bool := isNameChar c || c == ':'

def nameToken? (s : List Char) : Option (DeclToken × List Char) :=
  let w := s.takeWhile isTokenChar
  let r := s.dropWhile isTokenChar
  match qname? w with
  | some (q, []) => match r with
    | c :: t => if isQuantifier c then some (.quantified q, t)
        else if endsName r then some (.name q, r) else none
    | [] => none
  | _ => if w ≠ [] && w.head? ≠ some ':' && endsName r then some (.nmtoken w, r) else none

/-- One token of a declaration, which must end before something that may follow it. -/
def declToken? : List Char → Option (DeclToken × List Char)
  | '(' :: s => some (.openGroup, s)
  | ')' :: s => match s with
    | c :: t => if isQuantifier c then some (.closeGroup (some c), t)
        else if isSpace c || c == '>' || c == ',' || c == '|' || c == ')' then some (.closeGroup none, s)
        else none
    | [] => none
  | ',' :: s => some (.comma, s)
  | '|' :: s => some (.bar, s)
  | '%' :: s => if s.head?.any isSpace then some (.percent, s) else none
  | '#' :: s => (name? s).bind fun (n, r) =>
      if r.head?.any fun c => isSpace c || c == ')' || c == '>' || c == '%' || c == '|' then
        some (.reserved n, r)
      else none
  | s =>
      if s.head? = some '"' || s.head? = some '\'' then
        (literal? s).bind fun (v, r) =>
          if r.head?.any fun c => isSpace c || c == '>' || c == '%' || c == '[' then some (.literal v, r)
          else none
      else nameToken? s

/-- The tokens of a declaration up to its closing bracket, and what follows. -/
def declTokens (s : List Char) : Option (List DeclToken × List Char) :=
  match s with
  | [] => none
  | '>' :: r => some ([], r)
  | c :: t =>
      if isSpace c then declTokens t
      else (declToken? (c :: t)).bind fun (tok, r) =>
        if r.length ≤ t.length then (declTokens r).map fun (toks, u) => (tok :: toks, u) else none
termination_by s.length

/-- The characters of a public identifier. -/
def isPublicId (s : List Char) : Bool :=
  s.all fun c => c.isAlphanum || " \n\r-'()+,./:=?;!*#@$_%".toList.contains c

/-- The tokens of an external identifier, which holds a public one or not, and what follows. -/
def externalId? (systemNeeded : Bool) : List DeclToken → Option (List DeclToken)
  | t :: .literal a :: rest =>
      if t.isWord "SYSTEM" then some rest
      else if t.isWord "PUBLIC" && isPublicId a then
        match rest with
        | .literal _ :: rest => some rest
        | rest => if systemNeeded then none else some rest
      else none
  | _ => none

def entityDecl (d : Doctype) : List DeclToken → Option Doctype
  | .percent :: .name ⟨none, _⟩ :: [.literal v] =>
      if d.reading && (entityText v).isNone then none else some d
  | .percent :: .name ⟨none, _⟩ :: ts => (externalId? true ts).bind fun r => if r.isEmpty then some d else none
  | .name ⟨none, n⟩ :: [.literal v] =>
      if d.reading then (entityText v).map fun t => d.declareEntity n (.replacement t) else some d
  | .name ⟨none, n⟩ :: ts =>
      (externalId? true ts).bind fun r =>
        match r with
        | [] => some (d.declareEntity n .external)
        | [t, .name ⟨none, _⟩] => if t.isWord "NDATA" then some (d.declareEntity n .unparsed) else none
        | _ => none
  | _ => none

def notationDecl : List DeclToken → Bool
  | .name ⟨none, _⟩ :: ts => (externalId? false ts).any List.isEmpty
  | _ => false

/-- The members of an enumeration up to its end. -/
def enumeration? (namesOnly : Bool) : List DeclToken → Option (List DeclToken)
  | t :: .bar :: ts => if member t then enumeration? namesOnly ts else none
  | t :: .closeGroup none :: ts => if member t then some ts else none
  | _ => none
where
  member : DeclToken → Bool
    | .name q => !namesOnly || q.space.isNone
    | .nmtoken _ => !namesOnly
    | _ => false

def tokenTypes : List String := ["ID", "IDREF", "IDREFS", "ENTITY", "ENTITIES", "NMTOKEN", "NMTOKENS"]

/-- The type of an attribute, whether its values are tokens, and what follows. -/
def attributeType? : List DeclToken → Option (Bool × List DeclToken)
  | .openGroup :: ts => (enumeration? false ts).map (true, ·)
  | t :: ts =>
      if t.isWord "CDATA" then some (false, ts)
      else if tokenTypes.any t.isWord then some (true, ts)
      else if t.isWord "NOTATION" then
        match ts with
        | .openGroup :: us => (enumeration? true us).map (true, ·)
        | _ => none
      else none
  | [] => none

/-- The default of an attribute, as it is written, and what follows. -/
def attributeDefault? : List DeclToken → Option (Option (List Char) × List DeclToken)
  | .literal v :: ts => some (some v, ts)
  | .reserved r :: ts =>
      if r = "IMPLIED".toList || r = "REQUIRED".toList then some (none, ts)
      else if r = "FIXED".toList then
        match ts with
        | .literal v :: us => some (some v, us)
        | _ => none
      else none
  | _ => none

/-- The attributes of one declaration, in order. -/
def attributeDecls (element : List Char) (d : Doctype) (ts : List DeclToken) : Option Doctype :=
  match ts with
  | [] => some d
  | .name q :: ts =>
      (attributeType? ts).bind fun (tokenized, us) =>
        (attributeDefault? us).bind fun (written, vs) =>
          if vs.length ≤ ts.length then
            match written with
            | none => attributeDecls element (d.declareAttribute ⟨element, q.written, tokenized, none⟩) vs
            | some v =>
                if d.reading then
                  (attributeValue d tokenized v).bind fun v =>
                    attributeDecls element (d.declareAttribute ⟨element, q.written, tokenized, some v⟩) vs
                else attributeDecls element d vs
          else none
  | _ => none
termination_by ts.length

/-- The open groups of a content model, each with the mark between its members once it is known. -/
def modelFrom : List (Option Bool) → Bool → List DeclToken → Bool
  | [], _, ts => ts.isEmpty
  | g :: gs, true, t :: ts => match t with
    | .openGroup => modelFrom (none :: g :: gs) true ts
    | .name _ | .quantified _ => modelFrom (g :: gs) false ts
    | _ => false
  | g :: gs, false, t :: ts => match t with
    | .comma => g ≠ some true && modelFrom (some false :: gs) true ts
    | .bar => g ≠ some false && modelFrom (some true :: gs) true ts
    | .closeGroup _ => modelFrom gs false ts
    | _ => false
  | _ :: _, _, [] => false

/-- Text mixed with elements of these names. -/
def mixedModel : List DeclToken → Bool
  | [.closeGroup none] | [.closeGroup (some '*')] => true
  | .bar :: .name _ :: ts => mixedRest ts
  | _ => false
where
  mixedRest : List DeclToken → Bool
    | [.closeGroup (some '*')] => true
    | .bar :: .name _ :: ts => mixedRest ts
    | _ => false

def elementDecl : List DeclToken → Bool
  | .name _ :: .openGroup :: .reserved r :: ts => r = "PCDATA".toList && mixedModel ts
  | .name _ :: .openGroup :: ts => modelFrom [none] true ts
  | [.name _, t] => t.isWord "EMPTY" || t.isWord "ANY"
  | _ => false

/-- One declaration by its keyword. -/
def declaration (d : Doctype) (keyword : List Char) (ts : List DeclToken) : Option Doctype :=
  if keyword = "ENTITY".toList then entityDecl d ts
  else if keyword = "ATTLIST".toList then
    match ts with
    | .name q :: ts => attributeDecls q.written d ts
    | _ => none
  else if keyword = "ELEMENT".toList then if elementDecl ts then some d else none
  else if keyword = "NOTATION".toList then if notationDecl ts then some d else none
  else none

/-- A declaration behind its opening: the keyword and white space, then the tokens. -/
def markupDecl? (d : Doctype) (s : List Char) : Option (Doctype × List Char) :=
  let keyword := s.takeWhile Char.isAlpha
  let r := s.dropWhile Char.isAlpha
  if r.head?.any isSpace then
    (declTokens r).bind fun (ts, u) => (declaration d keyword ts).map (·, u)
  else none

/-- The declarations between brackets, and what follows the closing one. -/
def internalSubset (d : Doctype) (s : List Char) : Option (Doctype × List Char) :=
  match s with
  | [] => none
  | ']' :: r => some (d, r)
  | c :: t =>
      if isSpace c then internalSubset d t
      else
        let step := match c :: t with
          | '<' :: '!' :: '-' :: '-' :: u => (comment? u).map (d, ·)
          | '<' :: '!' :: u => markupDecl? d u
          | '<' :: '?' :: u => (instruction? u).map (d, ·)
          | '%' :: u => (name? u).bind fun (_, r) => (strip? [';'] r).map (d.skipElsewhere, ·)
          | _ => none
        step.bind fun (d, r) => if r.length ≤ t.length then internalSubset d r else none
termination_by s.length

/-- The name and external identifier of a document type, up to its subset or its end. -/
def doctypeHead (s : List Char) : Option (List DeclToken × List Char) :=
  match s with
  | [] => none
  | '>' :: _ => some ([], s)
  | '[' :: _ => some ([], s)
  | c :: t =>
      if isSpace c then doctypeHead t
      else (declToken? (c :: t)).bind fun (tok, r) =>
        if r.length ≤ t.length then (doctypeHead r).map fun (toks, u) => (tok :: toks, u) else none
termination_by s.length

/-- The document type behind its keyword. -/
def doctype? (standalone : Bool) (s : List Char) : Option (Doctype × List Char) :=
  if s.head?.any isSpace then
    (doctypeHead s).bind fun (ts, r) =>
      let start := Doctype.empty standalone
      let head := match ts with
        | [.name _] => some start
        | .name _ :: ts => (externalId? true ts).bind fun u =>
            if u.isEmpty then some { start with incomplete := true } else none
        | _ => none
      head.bind fun d =>
        match r with
        | '>' :: u => some (d, u)
        | '[' :: u => (internalSubset d u).bind fun (d, v) => (strip? ['>'] (skipSpace v)).map (d, ·)
        | _ => none
  else none

end ExportDiff.Xml
