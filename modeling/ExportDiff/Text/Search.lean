/- Parts of texts: occurrences, ends, and the pieces between separators. -/

namespace ExportDiff.Text

/-- `part` stands somewhere in the text. -/
def occursIn (part : List Char) : List Char → Bool
  | [] => part.isEmpty
  | c :: s => part.isPrefixOf (c :: s) || occursIn part s

def mentions (s part : String) : Bool := occursIn part.toList s.toList

def startsIn (s : String) (starts : List String) : Bool :=
  starts.any fun t => t.toList.isPrefixOf s.toList

def endsIn (s : String) (ends : List String) : Bool :=
  ends.any fun t => t.toList.isSuffixOf s.toList

/-- The pieces between the separators; a text without any is one piece. -/
def pieces (sep : Char) : List Char → List (List Char)
  | [] => [[]]
  | c :: s =>
      if c = sep then [] :: pieces sep s
      else match pieces sep s with
        | [] => [[c]]
        | p :: ps => (c :: p) :: ps

/-- What follows the last separator, or the whole text. -/
def lastPiece (sep : Char) (s : List Char) : List Char :=
  (s.reverse.takeWhile (· ≠ sep)).reverse

/-- What stands before the last separator, if there is one. -/
def beforeLast? {α} [DecidableEq α] (sep : α) (s : List α) : Option (List α) :=
  match s.reverse.dropWhile (· ≠ sep) with
  | [] => none
  | _ :: t => some t.reverse

/-- Texts one after another with a separator between them. -/
def join (sep : String) : List String → String
  | [] => ""
  | [s] => s
  | s :: ss => s ++ sep ++ join sep ss

def stringPieces (sep : Char) (s : String) : List String :=
  (pieces sep s.toList).map String.ofList

/-- The first `n` characters. -/
def clip (n : Nat) (s : String) : String := String.ofList (s.toList.take n)

end ExportDiff.Text
