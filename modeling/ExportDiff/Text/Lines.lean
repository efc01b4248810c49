/- Lines of a text. -/

namespace ExportDiff.Text

/-- Line feed, vertical tab, form feed, carriage return, three information separators,
the next-line control, and the Unicode line and paragraph separators. -/
def isLineBreak (c : Char) : Bool :=
  (0xA ≤ c.toNat && c.toNat ≤ 0xD) || (0x1C ≤ c.toNat && c.toNat ≤ 0x1E) ||
    c.toNat == 0x85 || c.toNat == 0x2028 || c.toNat == 0x2029

/-- The lines without their breaks; a return followed by a feed is one break, and a break at the
end opens no further line. -/
def splitLines : List Char → List (List Char)
  | [] => []
  | '\r' :: '\n' :: s => [] :: splitLines s
  | c :: s =>
      if isLineBreak c then [] :: splitLines s
      else match splitLines s with
        | [] => [[c]]
        | l :: ls => (c :: l) :: ls

def lines (s : String) : List String := (splitLines s.toList).map String.ofList

/-- Every return, alone or before a feed, becomes a feed. -/
def unifyBreaks : List Char → List Char
  | [] => []
  | '\r' :: '\n' :: s => '\n' :: unifyBreaks s
  | c :: s => (if c = '\r' then '\n' else c) :: unifyBreaks s

end ExportDiff.Text
