/- The fewest decimal digits that read back as a given binary floating-point number. -/
import ExportDiff.Number.Binary64

namespace ExportDiff.Number

/-- The reals that round to one positive number, in units of `1 / den`; the ends count when
`closed`. -/
structure Interval where
  low : Nat
  value : Nat
  high : Nat
  den : Nat
  closed : Bool

/-- The neighbours lie half a step away, below a power of two a quarter. -/
def Interval.around (mantissa : Nat) (exponent : Int) : Interval :=
  let down := if mantissa = Nat.pow 2 52 && -1074 < exponent then 1 else 2
  let num := if exponent < 2 then 1 else Nat.pow 2 (exponent - 2).toNat
  let den := if exponent < 2 then Nat.pow 2 (2 - exponent).toNat else 1
  ⟨(4 * mantissa - down) * num, 4 * mantissa * num, (4 * mantissa + 2) * num, den, mantissa % 2 == 0⟩

/-- The digits `d` on the grid of `num / den`-th parts lie in the interval. -/
def Interval.holds (i : Interval) (d num den : Nat) : Bool :=
  let x := d * num * i.den
  if i.closed then i.low * den ≤ x && x ≤ i.high * den else i.low * den < x && x < i.high * den

/-- The point of the grid of powers of ten that lies in the interval, the nearer one of two and of
two equally near ones the even. -/
def Interval.point? (i : Interval) (power : Int) : Option Nat :=
  let num := if power < 0 then 1 else Nat.pow 10 power.toNat
  let den := if power < 0 then Nat.pow 10 (-power).toNat else 1
  let d := i.value * den / (i.den * num)
  match i.holds d num den, i.holds (d + 1) num den with
  | true, true => some (roundDiv (i.value * den) (i.den * num))
  | true, false => some d
  | false, true => some (d + 1)
  | false, false => none

/-- The first grid with a point in the interval, from a coarse one to ever finer ones. -/
def Interval.search (i : Interval) : Nat → Int → Nat × Int
  | 0, power => (i.value / i.den, power)
  | tries + 1, power =>
      match i.point? power with
      | some d => (d, power)
      | none => i.search tries (power - 1)

/-- Digits and power of ten of the shortest decimal; seventeen digits are always enough, and the
first grid tried is at most two steps coarser than the leading digit. -/
def shortest (mantissa : Nat) (exponent : Int) : Nat × Int :=
  if mantissa = 0 then (0, 0)
  else (Interval.around mantissa exponent).search 40
    ((Nat.log2 mantissa + 1 + exponent) * 30103 / 100000 + 2)

end ExportDiff.Number
