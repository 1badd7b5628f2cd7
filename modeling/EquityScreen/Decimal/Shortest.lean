import EquityScreen.Decimal.Basic

/-!
# The shortest decimal that reads back

A finite double is `m · 2 ^ q`. The reals that round to it form an interval around it, closed when `m` is even. For one,
two, … digits the two neighbours of the value on that decimal grid are tried: the first grid with a neighbour inside the
interval gives the answer, and of two neighbours inside the nearer one. When both are as near a `Tie` decides. Seventeen
digits always suffice.
-/

namespace EquityScreen

/-- Which of two neighbours is taken when both are as near. -/
inductive Tie where
  | toEven | upwards
  deriving DecidableEq, Repr

/-- The neighbour that the tie goes to, of `n` and `n + 1`. -/
def Tie.choose : Tie → Nat → Nat
  | toEven, n => if n % 2 == 0 then n else n + 1
  | upwards, n => n + 1

/-- A finite double without its sign: `mantissa · 2 ^ exponent`, the lowest binade marked because the gap below a power of
two is half the gap above it everywhere else. -/
structure Dyadic where
  mantissa : Nat
  exponent : Int
  narrowBelow : Bool
  deriving DecidableEq, Repr

/-- The parts of a finite double. -/
def Dyadic.ofBits (bits : UInt64) : Dyadic :=
  let field := ((bits >>> 52) &&& 0x7FF).toNat
  let fraction := (bits &&& 0xFFFFFFFFFFFFF).toNat
  if field = 0 then ⟨fraction, -1074, false⟩
  else ⟨fraction + Nat.pow 2 52, (field : Int) - 1075, fraction == 0 && field > 1⟩

/-- A fraction of two whole numbers as `numerator / denominator`, for `n · 2 ^ e`. -/
def scaleTwo (n : Nat) (e : Int) : Nat × Nat :=
  if e < 0 then (n, Nat.pow 2 e.natAbs) else (n * Nat.pow 2 e.natAbs, 1)

/-- The interval of reals that round to a double, as three numerators over one denominator: its lower end, the double and
its upper end. -/
structure Rounding where
  lower : Nat
  value : Nat
  upper : Nat
  denominator : Nat
  closed : Bool

/-- The rounding interval in quarters of the gap above the double. -/
def Dyadic.rounding (d : Dyadic) : Rounding :=
  let (one, denominator) := scaleTwo 1 (d.exponent - 2)
  ⟨(4 * d.mantissa - (if d.narrowBelow then 1 else 2)) * one, 4 * d.mantissa * one, (4 * d.mantissa + 2) * one, denominator,
    d.mantissa % 2 == 0⟩

/-- The real with the numerator, over the denominator of the interval, is in the interval. -/
def Rounding.holds (r : Rounding) (x : Nat) : Bool :=
  if r.closed then r.lower ≤ x && x ≤ r.upper else r.lower < x && x < r.upper

/-- The interval brought to the grid of spacing `10 ^ e`: ends and value scaled so that the grid points are the multiples of
the returned spacing. -/
def Rounding.onGrid (r : Rounding) (e : Int) : Rounding × Nat :=
  if e < 0 then
    let k := Nat.pow 10 e.natAbs
    (⟨r.lower * k, r.value * k, r.upper * k, r.denominator, r.closed⟩, r.denominator)
  else (r, r.denominator * Nat.pow 10 e.natAbs)

/-- The best grid point of spacing `10 ^ e` that reads back, as a multiple of the spacing. -/
def Rounding.pick (r : Rounding) (tie : Tie) (e : Int) : Option Nat :=
  let (s, spacing) := r.onGrid e
  let below := s.value / spacing
  let above := below + 1
  let lowOk := s.holds (below * spacing) && below ≠ 0
  let highOk := s.holds (above * spacing)
  if lowOk && highOk then
    let down := s.value - below * spacing
    let up := above * spacing - s.value
    some (if down < up then below else if up < down then above else tie.choose below)
  else if lowOk then some below
  else if highOk then some above
  else none

/-- Tries grids from coarse to fine, `left` of them. -/
def Rounding.search (r : Rounding) (tie : Tie) (e : Int) : Nat → Option (Nat × Int)
  | 0 => none
  | left + 1 =>
    match r.pick tie e with
    | some n => some (n, e)
    | none => r.search tie (e - 1) left

/-- A power of ten at or above the double: the exponent of the first grid to try. -/
def Dyadic.topExponent (d : Dyadic) : Int :=
  let r := d.rounding
  let whole := r.value / r.denominator
  if whole ≠ 0 then digitCount whole
  else
    let inverse := r.denominator / r.value
    1 - digitCount inverse

/-- The digits without trailing zeros, the zeros moved into the exponent. -/
def trimZeros (digits : Nat) (exponent : Int) : Nat → Nat × Int
  | 0 => (digits, exponent)
  | fuel + 1 => if digits ≠ 0 && digits % 10 = 0 then trimZeros (digits / 10) (exponent + 1) fuel else (digits, exponent)

/-- The sign bit of a double. -/
def signBit (x : Float) : Bool :=
  x.toBits >>> 63 == 1

/-- The shortest decimal that reads back as the finite double, its digits not ending in zero. -/
def Decimal.shortest (tie : Tie) (x : Float) : Decimal :=
  let d := Dyadic.ofBits x.toBits
  if d.mantissa = 0 then ⟨signBit x, 0, 0⟩
  else
    match d.rounding.search tie d.topExponent 20 with
    | some (n, e) =>
      let (n, e) := trimZeros n e 20
      ⟨signBit x, n, e⟩
    | none => ⟨signBit x, 0, 0⟩

end EquityScreen
