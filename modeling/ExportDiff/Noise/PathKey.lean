/- The key of an archive path: its normal form without case, identifiers, and versions. -/
import ExportDiff.Noise.Content
import ExportDiff.Text.Lowercase

namespace ExportDiff.Noise
open Text

/-- Runs of separators become one: only the last of a run stays. -/
def collapseSlashes : List Char → List Char
  | [] => []
  | c :: s => if c = '/' && s.head? = some '/' then collapseSlashes s else c :: collapseSlashes s

/-- One pass of the rules over a path, in lower case and without the white space at its ends. -/
def keyPass (p : List Char) : List Char :=
  trim (lower (collapseSlashes (applyRules pathRules (applyRules idRules (lower p)))))

/-- An `x` weighs one and any other character two, so that each replaced run weighs less. -/
def weight (p : List Char) : Nat := p.foldr (fun c n => (if c = 'x' then 1 else 2) + n) 0

/-- Repeats the pass for as long as it makes a path lighter: in lower case every pass that
changes a path does. -/
def settle (p : List Char) : List Char :=
  if weight (keyPass p) < weight p then settle (keyPass p) else keyPass p
termination_by weight p

def pathKey (path : String) : String := String.ofList (settle (keyPass path.toList))

end ExportDiff.Noise
