/- Binary floating-point numbers of 64 bits, and rounding to them. -/

namespace ExportDiff.Number

/-- A finite number is `mantissa * 2 ^ exponent` with a mantissa below `2 ^ 53` and an exponent of
at least -1074; a mantissa below `2 ^ 52` occurs at that exponent only. -/
inductive Binary64 where
  | finite (negative : Bool) (mantissa : Nat) (exponent : Int)
  | infinite (negative : Bool)
  | nan
  deriving DecidableEq

/-- The nearest natural number to a quotient, a half going to the even neighbour. -/
def roundDiv (num den : Nat) : Nat :=
  let q := num / den
  let twice := 2 * (num % den)
  if twice < den then q
  else if den < twice then q + 1
  else if q % 2 = 0 then q else q + 1

/-- `num / den` times a power of two, as a quotient. -/
def scaleBy (num den : Nat) (power : Int) : Nat × Nat :=
  if power < 0 then (num, den * Nat.pow 2 (-power).toNat) else (num * Nat.pow 2 power.toNat, den)

/-- The exponent at which a positive quotient keeps 53 bits, or as many as the range allows. -/
def bitExponent (num den : Nat) : Int :=
  let guess : Int := max ((Nat.log2 num : Int) - Nat.log2 den - 53) (-1074)
  let (n, d) := scaleBy num den (-guess)
  if d * Nat.pow 2 53 ≤ n then guess + 1 else guess

/-- The nearest number to a quotient, a half going to the even mantissa. -/
def Binary64.ofQuotient (negative : Bool) (num den : Nat) : Binary64 :=
  if num = 0 then .finite negative 0 (-1074)
  else
    let e := bitExponent num den
    let (n, d) := scaleBy num den (-e)
    let m := roundDiv n d
    let (m, e) := if m = Nat.pow 2 53 then (Nat.pow 2 52, e + 1) else (m, e)
    if 971 < e then .infinite negative else .finite negative m e

/-- The nearest number to `digits * 10 ^ power`; the powers far outside the range are not raised. -/
def Binary64.ofDecimal (negative : Bool) (digits : Nat) (power : Int) : Binary64 :=
  let size := (Nat.toDigits 10 digits).length + power
  if digits = 0 || size < -400 then .finite negative 0 (-1074)
  else if 400 < size then .infinite negative
  else if power < 0 then .ofQuotient negative digits (Nat.pow 10 (-power).toNat)
  else .ofQuotient negative (digits * Nat.pow 10 power.toNat) 1

def Binary64.ofRat (r : Rat) : Binary64 := .ofQuotient (r.num < 0) r.num.natAbs r.den

/-- The value of a finite number; the others have none. -/
def Binary64.toRat? : Binary64 → Option Rat
  | .finite negative m e =>
      let v : Rat := if e < 0 then mkRat m (Nat.pow 2 (-e).toNat) else m * Nat.pow 2 e.toNat
      some (if negative then -v else v)
  | .infinite _ | .nan => none

end ExportDiff.Number
