/- Scanning the small parts of XML text: white space, references, literals, comments. -/
import ExportDiff.Xml.LocalName

namespace ExportDiff.Xml

/-- The characters that a document may hold. -/
def isLegal (c : Char) : Bool :=
  c == '\t' || c == '\n' || c == '\r' || (0x20 ≤ c.toNat && c.toNat ≠ 0xFFFE && c.toNat ≠ 0xFFFF)

def isSpace (c : Char) : Bool := c == ' ' || c == '\t' || c == '\n' || c == '\r'

def skipSpace (s : List Char) : List Char := s.dropWhile isSpace

/-- Strips a literal text. -/
def strip? : List Char → List Char → Option (List Char)
  | [], s => some s
  | _ :: _, [] => none
  | c :: w, d :: s => if c = d then strip? w s else none

/-- What stands before the first occurrence of a text, and what follows it. -/
def until? (stop : List Char) : List Char → Option (List Char × List Char)
  | [] => none
  | c :: s =>
      match strip? stop (c :: s) with
      | some r => some ([], r)
      | none => (until? stop s).map fun (t, r) => (c :: t, r)

/-- The rest behind a comment whose opening is already read; it holds no two hyphens. -/
def comment? (s : List Char) : Option (List Char) :=
  (until? "--".toList s).bind fun (_, r) => strip? ['>'] r

/-- The name `xml` in any case is no target of a processing instruction. -/
def isReservedTarget (n : List Char) : Bool := n.map Char.toLower = "xml".toList

/-- The rest behind a processing instruction whose opening is already read. -/
def instruction? (s : List Char) : Option (List Char) :=
  (name? s).bind fun (n, r) =>
    if isReservedTarget n then none
    else match strip? "?>".toList r with
      | some t => some t
      | none => if r.head?.any isSpace then (until? "?>".toList r).map (·.2) else none

/-- A text in single or double quotes. -/
def literal? : List Char → Option (List Char × List Char)
  | '"' :: s => until? ['"'] s
  | '\'' :: s => until? ['\''] s
  | _ => none

def hexDigit? (c : Char) : Option Nat :=
  if '0' ≤ c && c ≤ '9' then some (c.toNat - 0x30)
  else if 'a' ≤ c && c ≤ 'f' then some (c.toNat - 0x57)
  else if 'A' ≤ c && c ≤ 'F' then some (c.toNat - 0x37)
  else none

def isHexDigit (c : Char) : Bool := (hexDigit? c).isSome

/-- The digits of a base as a number; past the last code point the value no longer matters. -/
def codeOf (base : Nat) (ds : List Char) : Nat :=
  ds.foldl (fun n d => min 0x110000 (base * n + (hexDigit? d).getD 0)) 0

/-- The character of a code point that a reference may name. -/
def referable? (n : Nat) : Option Char :=
  if h : n.isValidChar then
    if isLegal (Char.ofNatAux n h) then some (Char.ofNatAux n h) else none
  else none

/-- What an ampersand starts. -/
inductive Reference where
  | char (c : Char)
  | entity (name : List Char)

/-- A reference behind its ampersand. -/
def reference? : List Char → Option (Reference × List Char)
  | '#' :: 'x' :: s => numeric 16 (s.takeWhile isHexDigit) (s.dropWhile isHexDigit)
  | '#' :: s => numeric 10 (s.takeWhile Char.isDigit) (s.dropWhile Char.isDigit)
  | s => (name? s).bind fun (n, r) => (strip? [';'] r).map fun t => (.entity n, t)
where
  numeric (base : Nat) (ds r : List Char) : Option (Reference × List Char) :=
    if ds = [] then none
    else (referable? (codeOf base ds)).bind fun c => (strip? [';'] r).map fun t => (.char c, t)

/-- The entities that every document has. -/
def predefined? (name : List Char) : Option Char :=
  if name = "lt".toList then some '<'
  else if name = "gt".toList then some '>'
  else if name = "amp".toList then some '&'
  else if name = "quot".toList then some '"'
  else if name = "apos".toList then some '\''
  else none

end ExportDiff.Xml
