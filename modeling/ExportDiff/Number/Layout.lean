/- How the digits of a number are written: positionally or with an exponent. -/
import ExportDiff.Number.Shortest

namespace ExportDiff.Number

/-- A decimal is written positionally when its point lies `-smallest` to `largest` digits behind
its first digit; an exponent has at least `exponentDigits` digits. -/
structure Layout where
  smallest : Int
  largest : Int
  exponentDigits : Nat
  infinity : String
  nan : String

def padLeft (n : Nat) (c : Char) (s : String) : String :=
  String.ofList (List.replicate (n - s.length) c) ++ s

/-- A positional decimal keeps a zero after its point. -/
def positional (digits : List Char) (point : Int) : String :=
  if point ≤ 0 then "0." ++ String.ofList (List.replicate (-point).toNat '0' ++ digits)
  else
    let whole := digits.take point.toNat
    let zeros := List.replicate (point.toNat - whole.length) '0'
    let part := digits.drop point.toNat
    String.ofList (whole ++ zeros) ++ "." ++ (if part = [] then "0" else String.ofList part)

def scientific (exponentDigits : Nat) (digits : List Char) (point : Int) : String :=
  let e := point - 1
  let lead := digits.take 1
  let part := digits.drop 1
  String.ofList lead ++ (if part = [] then "" else "." ++ String.ofList part) ++ "e" ++
    (if e < 0 then "-" else "+") ++ padLeft exponentDigits '0' (toString e.natAbs)

def Layout.digits (l : Layout) (digits : Nat) (power : Int) : String :=
  let ds := Nat.toDigits 10 digits
  let point := ds.length + power
  if l.smallest < point && point ≤ l.largest then positional ds point
  else scientific l.exponentDigits ds point

def Layout.write (l : Layout) : Binary64 → String
  | .finite negative m e =>
      let (d, p) := shortest m e
      (if negative then "-" else "") ++ l.digits d p
  | .infinite negative => (if negative then "-" else "") ++ l.infinity
  | .nan => l.nan

end ExportDiff.Number
