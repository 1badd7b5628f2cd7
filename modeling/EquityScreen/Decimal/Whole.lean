import EquityScreen.Decimal.Shortest

/-!
# Doubles that are whole numbers

The whole number that a double stands for, found from its mantissa and exponent without rounding.
-/

namespace EquityScreen

/-- The whole number that a mantissa and a power of two make, if they make one. -/
def Dyadic.whole? (d : Dyadic) : Option Nat :=
  if 0 ≤ d.exponent then some (d.mantissa * Nat.pow 2 d.exponent.natAbs)
  else if d.mantissa % Nat.pow 2 d.exponent.natAbs = 0 then some (d.mantissa / Nat.pow 2 d.exponent.natAbs)
  else none

/-- The whole number that a double of at least zero stands for. -/
def wholeNumber? (x : Float) : Option Nat :=
  if x.isFinite && 0.0 ≤ x then (Dyadic.ofBits x.toBits).whole? else none

/-- The greatest count of 64 bits. -/
def greatestCount : Nat := Nat.pow 2 64 - 1

end EquityScreen
