/- Full lower-casing: a character may grow, and a capital sigma looks at its neighbours. -/
import ExportDiff.Text.CaseTable

namespace ExportDiff.Text

/-- The small form of a character that does not depend on its neighbours. -/
def lowerChar (c : Char) : List Char :=
  if c = 'İ' then ['i', '\u0307']
  else if c.toNat < 0x80 then [c.toLower]
  else match caseRuns.find? (·.covers c.toNat) with
    | some r => [Char.ofNat (c.toNat + r.shift).toNat]
    | none => [c]

/-- The small sigma is the final one after a cased character and before none. -/
def lowerSigma (afterCased : Bool) (rest : List Char) : Char :=
  if afterCased && !(rest.dropWhile isCaseIgnorable).head?.any isCased then 'ς' else 'σ'

/-- Lower-casing from a place; `afterCased` says that the last character not passed over is cased. -/
def lowerFrom (afterCased : Bool) : List Char → List Char
  | [] => []
  | c :: s =>
      (if c = 'Σ' then [lowerSigma afterCased s] else lowerChar c) ++
        lowerFrom (if isCaseIgnorable c then afterCased else isCased c) s

def lower (s : List Char) : List Char := lowerFrom false s

def lowercase (s : String) : String := String.ofList (lower s.toList)

end ExportDiff.Text
