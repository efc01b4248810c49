/- The tokens of element content: tags, characters, and references to entities. -/
import ExportDiff.Xml.Entity

namespace ExportDiff.Xml

/-- Comments and processing instructions leave no token. Characters that are written as they are
stand apart from those of references and literal sections, which have no place outside the root. -/
inductive Token where
  | start (name : QName) (attributes : List (QName × List Char)) (closed : Bool)
  | stop (written : List Char)
  | chars (s : List Char)
  | given (s : List Char)
  | entity (name : List Char)

/-- The end of a tag, which may close its element at once. -/
def tagEnd? : List Char → Option (List (QName × List Char) × Bool × List Char)
  | '>' :: r => some ([], false, r)
  | '/' :: '>' :: r => some ([], true, r)
  | _ => none

/-- The attributes of a tag up to its end: values are still as they are written. The budget is no less
than the length of the text. -/
def tagRest : Nat → List Char → Option (List (QName × List Char) × Bool × List Char)
  | _, [] | 0, _ => none
  | budget + 1, c :: t =>
      if !isSpace c then tagEnd? (c :: t)
      else
        let u := skipSpace t
        if u.head?.any isNameStart then
          (qname? u).bind fun (q, r) =>
            (strip? ['='] (skipSpace r)).bind fun r =>
              (literal? (skipSpace r)).bind fun (v, r) =>
                if r.head?.any fun c => isSpace c || c == '/' || c == '>' then
                  (tagRest budget r).map fun (atts, rest) => ((q, v) :: atts, rest)
                else none
        else tagEnd? u

/-- The value of an attribute, resolved by its declared type. -/
def resolveAttribute (d : Doctype) (element : List Char) (a : QName × List Char) :
    Option (QName × List Char) :=
  let tokenized := ((d.attribute? element a.1.written).map (·.tokenized)).getD false
  (attributeValue d tokenized a.2).map (a.1, ·)

/-- The attributes with an initial value that a tag leaves out. -/
def addedAttributes (d : Doctype) (element : List Char) (given : List (QName × List Char)) :
    List (QName × List Char) :=
  d.attributes.filterMap fun a =>
    if a.element = element && !given.any (·.1.written = a.name) then
      match qname? a.name, a.initial with
      | some (q, []), some v => some (q, v)
      | _, _ => none
    else none

def startTag? (d : Doctype) (budget : Nat) (s : List Char) : Option (Token × List Char) :=
  (qname? s).bind fun (q, r) =>
    (tagRest budget r).bind fun (written, closed, rest) =>
      (written.mapM (resolveAttribute d q.written)).map fun atts =>
        (.start q (atts ++ addedAttributes d q.written atts) closed, rest)

/-- A closing tag behind its opening mark. -/
def endTag? (s : List Char) : Option (Token × List Char) :=
  if s.head?.any isNameStart then
    let isPart (c : Char) := isNameChar c || c == ':'
    (strip? ['>'] (skipSpace (s.dropWhile isPart))).map fun r => (.stop (s.takeWhile isPart), r)
  else none

/-- Characters up to the next tag or reference; the end of a literal section has no place there. -/
def plainChars : List Char → Option (List Char × List Char)
  | [] => some ([], [])
  | '<' :: s => some ([], '<' :: s)
  | '&' :: s => some ([], '&' :: s)
  | ']' :: ']' :: '>' :: _ => none
  | c :: s => (plainChars s).map fun (t, r) => (c :: t, r)

/-- What stands at the head of some content: a token, unless it is a comment or an instruction. -/
def token? (d : Doctype) (budget : Nat) : List Char → Option (Option Token × List Char)
  | '<' :: '/' :: s => (endTag? s).map fun (t, r) => (some t, r)
  | '<' :: '!' :: '-' :: '-' :: s => (comment? s).map (none, ·)
  | '<' :: '!' :: s =>
      (strip? "[CDATA[".toList s).bind fun t =>
        (until? "]]>".toList t).map fun (v, r) => (some (.given v), r)
  | '<' :: '?' :: s => (instruction? s).map (none, ·)
  | '<' :: s => (startTag? d budget s).map fun (t, r) => (some t, r)
  | '&' :: s =>
      (reference? s).map fun (ref, r) =>
        match ref with
        | .char c => (some (.given [c]), r)
        | .entity n => match predefined? n with
          | some c => (some (.given [c]), r)
          | none => (some (.entity n), r)
  | s => (plainChars s).map fun (t, r) => (some (.chars t), r)

/-- The tokens of some content; each takes a character at least, which the budget counts. -/
def tokensWithin (d : Doctype) : Nat → List Char → Option (List Token)
  | _, [] => some []
  | 0, _ => none
  | budget + 1, s =>
      (token? d budget s).bind fun (t, r) => (tokensWithin d budget r).map fun ts => t.toList ++ ts

/-- All the tokens of some content. -/
def tokens? (d : Doctype) (s : List Char) : Option (List Token) := tokensWithin d s.length s

/-- Tags come in pairs; `level` counts those open. -/
def isBalanced : Nat → List Token → Bool
  | level, [] => level == 0
  | level, .start _ _ false :: ts => isBalanced (level + 1) ts
  | 0, .stop _ :: _ => false
  | level + 1, .stop _ :: ts => isBalanced level ts
  | level, _ :: ts => isBalanced level ts

/-- Replaces entities, nested at most `level` deep, by the tokens of their balanced texts. -/
def resolveTokens (d : Doctype) (level : Nat) (tokens : List Token) : Option (List Token) :=
  match level, tokens with
  | _, [] => some []
  | 0, .entity _ :: _ => none
  | level + 1, .entity n :: ts =>
      match d.entity? n with
      | some (.replacement text) =>
          (tokens? d text).bind fun inner =>
            if isBalanced 0 inner then
              (resolveTokens d level inner).bind fun us => (resolveTokens d (level + 1) ts).map (us ++ ·)
            else none
      | _ => none
  | level, t :: ts => (resolveTokens d level ts).map (t :: ·)
termination_by (level, tokens.length)

end ExportDiff.Xml
