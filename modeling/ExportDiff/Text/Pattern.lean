/- Patterns over characters: literal texts and runs of a class, searched leftmost and replaced. -/

namespace ExportDiff.Text

/-- Equality of a small letter and a character up to case; three letters have a twin outside ASCII. -/
def sameLetter (c d : Char) : Bool :=
  d.toLower == c || (c == 's' && d == '\u017F') || (c == 'k' && d == '\u212A') ||
    (c == 'i' && (d == '\u0131' || d == '\u0130'))

/-- Every character but one. -/
def isNot (d c : Char) : Bool := c != d

/-- One step of a pattern. -/
inductive Piece where
  /-- These characters. -/
  | chars (w : List Char)
  /-- These characters, whose letters are small, in any case. -/
  | letters (w : List Char)
  /-- `n` characters of a class. -/
  | exactly (n : Nat) (p : Char → Bool)
  /-- All the characters of a class that follow, at least one. -/
  | run (p : Char → Bool)
  /-- All the characters of a class that follow, if any. -/
  | gap (p : Char → Bool)
  /-- As many characters of a class as let the rest match. -/
  | stretch (p : Char → Bool)
  /-- A run that the match gives back. -/
  | capture (p : Char → Bool)
  /-- `n` characters of a class that the match gives back. -/
  | captureExactly (n : Nat) (p : Char → Bool)
  /-- The end of the text, or of its last line. -/
  | atEnd

def Piece.text (w : String) : Piece := .chars w.toList

def Piece.anyCase (w : String) : Piece := .letters w.toList

/-- How many characters a match takes, what it gives back, and what it leaves. -/
structure Match where
  length : Nat
  captured : List Char
  rest : List Char

/-- The match as part of one that begins `n` characters earlier. -/
def Match.after (n : Nat) (m : Match) : Match := { m with length := n + m.length }

/-- The match as part of one that begins with a captured text. -/
def Match.capturing (t : List Char) (m : Match) : Match :=
  { m.after t.length with captured := t ++ m.captured }

/-- Strips a text that is compared letter by letter. -/
def stripBy (same : Char → Char → Bool) : List Char → List Char → Option (List Char)
  | [], s => some s
  | _ :: _, [] => none
  | c :: w, d :: s => if same c d then stripBy same w s else none

/-- Tries the longest stretch of a class first, then ever shorter ones. -/
def longest (p : Char → Bool) (next : List Char → Option Match) : List Char → Option Match
  | [] => next []
  | c :: s =>
      if p c then ((longest p next s).map (Match.after 1)).or (next (c :: s)) else next (c :: s)

/-- Splits off `n` characters of a class. -/
def takeExactly (p : Char → Bool) : Nat → List Char → Option (List Char × List Char)
  | 0, s => some ([], s)
  | _ + 1, [] => none
  | n + 1, c :: s => if p c then (takeExactly p n s).map fun (t, r) => (c :: t, r) else none

/-- Matches the pieces one after another at the head of a text. -/
def matchPieces : List Piece → List Char → Option Match
  | [], s => some ⟨0, [], s⟩
  | .chars w :: ps, s =>
      (stripBy (· == ·) w s).bind fun r => (matchPieces ps r).map (Match.after w.length)
  | .letters w :: ps, s =>
      (stripBy sameLetter w s).bind fun r => (matchPieces ps r).map (Match.after w.length)
  | .exactly n p :: ps, s =>
      (takeExactly p n s).bind fun (_, r) => (matchPieces ps r).map (Match.after n)
  | .run p :: ps, s =>
      if s.head?.any p then
        (matchPieces ps (s.dropWhile p)).map (Match.after (s.takeWhile p).length)
      else none
  | .gap p :: ps, s => (matchPieces ps (s.dropWhile p)).map (Match.after (s.takeWhile p).length)
  | .stretch p :: ps, s => longest p (matchPieces ps) s
  | .capture p :: ps, s =>
      if s.head?.any p then (matchPieces ps (s.dropWhile p)).map (Match.capturing (s.takeWhile p))
      else none
  | .captureExactly n p :: ps, s =>
      (takeExactly p n s).bind fun (t, r) => (matchPieces ps r).map (Match.capturing t)
  | .atEnd :: ps, s => if s = [] || s = ['\n'] then matchPieces ps s else none

/-- Alternatives in order of preference, none of which may follow a character of a class. -/
structure Pattern where
  notAfter : Char → Bool
  alternatives : List (List Piece)

/-- A pattern of one alternative that may stand anywhere. -/
def Pattern.of (ps : List Piece) : Pattern := ⟨fun _ => false, [ps]⟩

def Pattern.oneOf (alternatives : List (List Piece)) : Pattern := ⟨fun _ => false, alternatives⟩

/-- The match at the head of `s`, where `before` is the character just before it. -/
def Pattern.matchAt (p : Pattern) (before : Option Char) (s : List Char) : Option Match :=
  if before.any p.notAfter then none else p.alternatives.findSome? (matchPieces · s)

/-- The leftmost match from a place. -/
def Pattern.searchFrom (p : Pattern) : Option Char → List Char → Option Match
  | before, [] => p.matchAt before []
  | before, c :: s => (p.matchAt before (c :: s)).or (p.searchFrom (some c) s)

def Pattern.search (p : Pattern) (s : String) : Option Match := p.searchFrom none s.toList

/-- What the leftmost match gives back. -/
def Pattern.find? (p : Pattern) (s : String) : Option String :=
  (p.search s).map fun m => String.ofList m.captured

/-- Replaces from a place, after dropping the `skip` characters left of the last match. -/
def Pattern.replaceFrom (p : Pattern) (fresh : List Char) : Nat → Option Char → List Char → List Char
  | _, _, [] => []
  | skip + 1, _, c :: s => p.replaceFrom fresh skip (some c) s
  | 0, before, c :: s =>
      match p.matchAt before (c :: s) with
      | some m => fresh ++ p.replaceFrom fresh (m.length - 1) (some c) s
      | none => c :: p.replaceFrom fresh 0 (some c) s

/-- Replaces every match, leftmost first, none within another. -/
def Pattern.replaceAll (p : Pattern) (fresh : List Char) (s : List Char) : List Char :=
  p.replaceFrom fresh 0 none s

end ExportDiff.Text
