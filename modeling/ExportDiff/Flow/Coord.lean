/- Coordinates of a layout: exact numbers that remember whether they are written with a point. -/
import ExportDiff.Number.Binary64

namespace ExportDiff.Flow
open Number

/-- A sum or product is written with a point when one of its parts is. -/
structure Coord where
  value : Rat
  pointed : Bool
  deriving DecidableEq

def Coord.ofInt (n : Int) : Coord := ⟨n, false⟩

/-- Results are kept as they are, or rounded to what 64 bits hold. -/
inductive Rounding where
  | exact
  | binary64
  deriving DecidableEq

def Rounding.apply : Rounding → Rat → Rat
  | .exact, x => x
  | .binary64, x => ((Binary64.ofRat x).toRat?).getD x

namespace Coord

def combine (f : Rat → Rat → Rat) (rd : Rounding) (a b : Coord) : Coord :=
  if a.pointed || b.pointed then ⟨rd.apply (f (rd.apply a.value) (rd.apply b.value)), true⟩
  else ⟨f a.value b.value, false⟩

def add : Rounding → Coord → Coord → Coord := combine (· + ·)

def mul : Rounding → Coord → Coord → Coord := combine (· * ·)

/-- The larger; of two equal ones the first. -/
def max (a b : Coord) : Coord := if a.value < b.value then b else a

end Coord

end ExportDiff.Flow
