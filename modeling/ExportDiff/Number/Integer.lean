/- Integers as they are written on a command line. -/
import ExportDiff.Text.CharClass

namespace ExportDiff.Number
open Text

/-- Around an integer the information separators are no white space. -/
def isMargin (c : Char) : Bool := isBlank c && !(0x1C ≤ c.toNat && c.toNat ≤ 0x1F)

/-- Digits of any script, with single low lines between them. -/
def digitValues? : List Char → Option (List Nat)
  | [] => none
  | [c] => (digitValue? c).map fun d => [d]
  | c :: '_' :: s => (digitValue? c).bind fun d => (digitValues? s).map (d :: ·)
  | c :: s => (digitValue? c).bind fun d => (digitValues? s).map (d :: ·)

/-- A number of more digits than this is refused. -/
def maxDigits : Nat := 4300

def natural? (s : List Char) : Option Nat :=
  ((digitValues? s).filter (·.length ≤ maxDigits)).map fun ds => ds.foldl (fun n d => 10 * n + d) 0

/-- An integer with white space around it and perhaps a sign. -/
def integer? (s : String) : Option Int :=
  match ((s.toList.dropWhile isMargin).reverse.dropWhile isMargin).reverse with
  | '-' :: ds => (natural? ds).map fun n => -(n : Int)
  | '+' :: ds => (natural? ds).map Int.ofNat
  | ds => (natural? ds).map Int.ofNat

end ExportDiff.Number
