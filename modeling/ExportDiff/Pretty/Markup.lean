/- Laying out markup with one tag on a line, indented by a guess at the nesting. -/
import ExportDiff.Text.CharClass
import ExportDiff.Text.Pattern
import ExportDiff.Text.Search

namespace ExportDiff.Pretty
open Text

/-- Two tags with nothing but white space between them. -/
def tagBoundary : Pattern := .of [.text ">", .gap isBlank, .text "<"]

/-- The lines that hold something, trimmed, after a break at every tag boundary. -/
def markupLines (s : List Char) : List (List Char) :=
  ((pieces '\n' (tagBoundary.replaceAll ">\n<".toList s)).map trim).filter (· ≠ [])

def isEndTag (line : List Char) : Bool := "</".toList.isPrefixOf line

/-- The line starts an element and does not end it. -/
def opensElement (line : List Char) : Bool :=
  "<".toList.isPrefixOf line && !isEndTag line && !"<?".toList.isPrefixOf line &&
    !"<!".toList.isPrefixOf line && !"/>".toList.isSuffixOf line && !occursIn "</".toList line

/-- Two blanks a level; an end tag stands a level further out than what is before it. -/
def indentFrom (level : Nat) : List (List Char) → List (List Char)
  | [] => []
  | line :: rest =>
      let here := if isEndTag line then level - 1 else level
      (List.replicate (2 * here) ' ' ++ line) ::
        indentFrom (if opensElement line then here + 1 else here) rest

def joinLines : List (List Char) → List Char
  | [] => []
  | [l] => l
  | l :: ls => l ++ '\n' :: joinLines ls

def markupText (s : List Char) : List Char :=
  if (trim s).head? = some '<' then joinLines (indentFrom 0 (markupLines s)) else s

/-- Text that starts with no tag stays as it is. -/
def markup (s : String) : String := String.ofList (markupText s.toList)

end ExportDiff.Pretty
