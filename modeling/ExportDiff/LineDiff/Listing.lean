/- Line views as text for a terminal. -/
import ExportDiff.LineDiff.View
import ExportDiff.Text.Search

namespace ExportDiff.LineDiff
open Text

def LineKind.marker : LineKind → String
  | .removed => "-"
  | .added => "+"
  | .unchanged | .gap => " "

def spaces (n : Nat) : String := String.ofList (List.replicate n ' ')

/-- A line number to the right in five columns, or blanks. -/
def numberColumn : Option Nat → String
  | some n => spaces (5 - (toString n).length) ++ toString n
  | none => spaces 5

/-- The first `width` characters, filled up with blanks. -/
def column (width : Nat) (s : String) : String :=
  clip width s ++ spaces (width - (clip width s).length)

def StreamLine.listing (l : StreamLine) : String :=
  numberColumn l.leftNumber ++ " " ++ numberColumn l.rightNumber ++ " " ++ l.kind.marker ++ " " ++ l.text

def unifiedListing (left right : Option String) : List String :=
  (unified left right).map StreamLine.listing

def rowListing (width : Nat) (l r : PaneRow) : String :=
  numberColumn l.number ++ " " ++ l.kind.marker ++ " " ++ column width l.text ++ " | " ++
    numberColumn r.number ++ " " ++ r.kind.marker ++ " " ++ r.text

def sideBySideListing (width : Nat) (left right : Option String) : List String :=
  (sideBySide left right).map fun (l, r) => rowListing width l r

end ExportDiff.LineDiff
