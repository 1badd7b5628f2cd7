import EquityScreen.Decimal.Layout

/-!
# A fixed number of places

A double written with a fixed number of places behind the point is its exact binary value rounded to that grid, a half to
the even neighbour. A value that rounds to zero keeps its sign.
-/

namespace EquityScreen

/-- The number with exactly `places` digits behind the point. -/
def fixedPlaces (places : Nat) (x : Float) : String :=
  if x.isNaN then "NaN"
  else if x.isInf then (if x < 0.0 then "-inf" else "inf")
  else
    let d := Dyadic.ofBits x.toBits
    let (numerator, denominator) := scaleTwo d.mantissa d.exponent
    let scaled := toString (roundHalfEven (numerator * Nat.pow 10 places) denominator)
    let padded := zeros (places + 1 - scaled.length) ++ scaled
    let whole := (padded.take (padded.length - places)).toString
    let fraction := (padded.drop (padded.length - places)).toString
    (if signBit x then "-" else "") ++ whole ++ (if places = 0 then "" else "." ++ fraction)

end EquityScreen
