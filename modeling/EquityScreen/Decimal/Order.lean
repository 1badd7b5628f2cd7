import EquityScreen.Decimal.Shortest

/-!
# The total order of doubles

Every double has a place in one order: by magnitude, the negative ones below the others, `-0.0` just below `0.0`. For two
doubles that are numbers and not both zero it is their order as numbers.
-/

namespace EquityScreen

/-- The place of a double in the total order. -/
def place (x : Float) : Int :=
  let magnitude : Int := (x.toBits &&& 0x7FFFFFFFFFFFFFFF).toNat
  if signBit x then -magnitude - 1 else magnitude

end EquityScreen
