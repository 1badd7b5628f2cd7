import EquityScreen.Decimal.Shortest

/-!
# Numbers of 64 significant bits

Between decimals and doubles the store reckons with numbers of 64 significant bits: every result is rounded to that many, a
half to the even neighbour. The exponent is without bounds. A power of ten is such a number too, and scaling by a large one
goes in steps of a hundred places, ten places and one place, each of which rounds; so a number that is scaled far is not
always the nearest one.
-/

namespace EquityScreen

/-- The number `significand · 2 ^ exponent`, of at most 64 significant bits. -/
structure Extended where
  significand : Nat
  exponent : Int
  deriving DecidableEq, Repr

namespace Extended

/-- The nearest number to `n · 2 ^ e`. -/
def round (n : Nat) (e : Int) : Extended :=
  let drop := n.log2 - 63
  ⟨roundHalfEven n (Nat.pow 2 drop), e + drop⟩

/-- The product. -/
def mul (x y : Extended) : Extended := round (x.significand * y.significand) (x.exponent + y.exponent)

/-- A power of ten. -/
def tenTo (k : Nat) : Extended := round (Nat.pow 10 k) 0

/-- One over a power of ten, which is no power of two. -/
def tenthTo (k : Nat) : Extended :=
  let shift := (Nat.pow 10 k).log2 + 64
  ⟨roundHalfEven (Nat.pow 2 shift) (Nat.pow 10 k), -(shift : Int)⟩

/-- The order of two numbers. -/
def le (x y : Extended) : Bool :=
  let shift := (x.exponent - y.exponent).natAbs
  if x.exponent ≤ y.exponent then x.significand ≤ y.significand * Nat.pow 2 shift
  else x.significand * Nat.pow 2 shift ≤ y.significand

/-- The whole number below. -/
def floor (x : Extended) : Nat :=
  let (numerator, denominator) := scaleTwo x.significand x.exponent
  numerator / denominator

/-- A finite double without its sign. -/
def ofFloat (x : Float) : Extended :=
  let d := Dyadic.ofBits x.toBits
  ⟨d.mantissa, d.exponent⟩

/-- The nearest double, infinity past the largest. The bits of a double count the doubles below it, so that a significand
that is rounded up past 53 bits carries into the exponent by itself. -/
def toFloat (x : Extended) : Float :=
  if x.significand = 0 then 0.0
  else
    let drop := max ((x.significand.log2 : Int) - 52) (-1074 - x.exponent)
    let n := if drop < 0 then x.significand * Nat.pow 2 drop.natAbs else roundHalfEven x.significand (Nat.pow 2 drop.natAbs)
    let bits := (x.exponent + drop + 1074).natAbs * Nat.pow 2 52 + n
    if bits < 0x7FF * Nat.pow 2 52 then Float.ofBits (UInt64.ofNat bits) else infinity

/-- The number scaled by the power of ten, in steps. -/
def scaleTen (x : Extended) (e : Int) : Extended :=
  let power := if e < 0 then tenthTo else tenTo
  let k := e.natAbs
  let far := Nat.repeat (mul (power 100)) (k / 100) x
  let near := Nat.repeat (mul (power 10)) (k % 100 / 10) far
  Nat.repeat (mul (power 1)) (k % 10) near

/-- The number multiplied by the factor as long as the test holds, at most so many times, and the places gained. -/
def scaleWhile (test : Extended → Bool) (factor : Extended) (places : Int) : Nat → Extended × Int → Extended × Int
  | 0, r => r
  | steps + 1, (x, e) => if test x then scaleWhile test factor places steps (x.mul factor, e + places) else (x, e)

/-- A double without its sign brought between `10 ^ 17` and `10 ^ 19`, and the power of ten that brings it back. -/
def window (x : Float) : Extended × Int :=
  let start := (ofFloat x, (0 : Int))
  let above (k : Nat) : Extended → Bool := (tenTo k).le
  let below (limit : Extended) (y : Extended) : Bool := !(limit.le y)
  if above 19 start.1 then
    scaleWhile (above 19) (tenthTo 1) 1 12 <| scaleWhile (above 29) (tenthTo 10) 10 12 <|
      scaleWhile (above 119) (tenthTo 100) 100 4 start
  else
    scaleWhile (below (tenTo 17)) (tenTo 1) (-1) 12 <| scaleWhile (below (tenTo 7)) (tenTo 10) (-10) 12 <|
      scaleWhile (below (tenthTo 97)) (tenTo 100) (-100) 4 start

end Extended

end EquityScreen
