/- Names as they are written: plainly, with a prefix, or with a namespace in braces; and their local part. -/
import ExportDiff.Text.Search
import ExportDiff.Xml.NameTable

namespace ExportDiff.Xml
open Text

/-- A name without a prefix, and what follows it. -/
def name? (s : List Char) : Option (List Char × List Char) :=
  if s.head?.any isNameStart then some (s.takeWhile isNameChar, s.dropWhile isNameChar) else none

/-- A name as it is written, with at most one prefix. -/
structure QName where
  space : Option (List Char)
  base : List Char
  deriving DecidableEq

def QName.written (q : QName) : List Char :=
  match q.space with
  | some p => p ++ ':' :: q.base
  | none => q.base

def qname? (s : List Char) : Option (QName × List Char) :=
  (name? s).bind fun (n, r) =>
    match r with
    | ':' :: t => (name? t).map fun (m, u) => (⟨some n, m⟩, u)
    | _ => some (⟨none, n⟩, r)

/-- What follows the braces, if the name starts with them; none when they are not closed. -/
def behindNamespace? : List Char → Option (List Char)
  | '\x7b' :: s =>
      match s.dropWhile (· ≠ '\x7d') with
      | _ :: r => some r
      | [] => none
  | s => some s

def localName? (name : String) : Option String :=
  (behindNamespace? name.toList).map fun s => String.ofList (lastPiece ':' s)

end ExportDiff.Xml
