/-!
# Decimal numbers

A decimal is a sign, a whole number of digits and a power of ten. Reading one as a number gives the nearest double, an even
significand on a tie, infinity past the largest and a zero of the same sign below the smallest (`Decimal.toFloat`).
-/

namespace EquityScreen

/-- The number `± digits · 10 ^ exponent`. -/
structure Decimal where
  negative : Bool
  digits : Nat
  exponent : Int
  deriving DecidableEq, Repr

/-- The value of a run of decimal digits read after the digits already read. -/
def digitsValue (start : Nat) (cs : List Char) : Nat :=
  cs.foldl (fun n c => n * 10 + (c.toNat - '0'.toNat)) start

/-- Not a number: the mark of a missing value. -/
def notANumber : Float := 0.0 / 0.0

/-- The infinity above every double. -/
def infinity : Float := 1.0 / 0.0

/-- How many decimal digits a number is written with; none for zero. -/
def digitCount (n : Nat) : Nat :=
  if n = 0 then 0 else (Nat.toDigits 10 n).length

/-- The quotient rounded to the nearest whole number, a half to the even one. -/
def roundHalfEven (numerator denominator : Nat) : Nat :=
  let q := numerator / denominator
  let twice := 2 * (numerator % denominator)
  if twice < denominator then q
  else if denominator < twice then q + 1
  else if q % 2 = 0 then q else q + 1

/-- The size of a decimal as the nearest double. Where the power of ten alone settles the answer it is not computed. -/
def Decimal.magnitude (d : Decimal) : Float :=
  let place := d.exponent + digitCount d.digits
  if d.digits = 0 || place < -330 then 0.0
  else if place > 310 then infinity
  else if d.exponent < 0 then Float.ofScientific d.digits true d.exponent.natAbs
  else Float.ofScientific d.digits false d.exponent.natAbs

/-- The nearest double. -/
def Decimal.toFloat (d : Decimal) : Float :=
  if d.negative then -d.magnitude else d.magnitude

end EquityScreen
