/-!
# Numbers an indicator is computed with

The formulas of the indicators are written once, over any type with the arithmetic of `Quantity`. A program computes with
doubles; a theorem may take a type of exact numbers with one more element for a missing value. Every comparison with a
missing value is false.
-/

namespace EquityScreen

/-- A type of numbers, one of which stands for a missing value and two for bounds of all others. -/
class Quantity (α : Type) extends Add α, Sub α, Mul α, Div α, Neg α where
  /-- The number of a count. -/
  count : Nat → α
  /-- The missing value. -/
  missing : α
  /-- No number lies below it. -/
  bottom : α
  /-- No number lies above it. -/
  top : α
  /-- The value is missing. -/
  isMissing : α → Bool
  /-- The value is a number and no bound. -/
  isFinite : α → Bool
  /-- The size of a number. -/
  size : α → α
  /-- The square root. -/
  root : α → α
  /-- The first number lies below the second. -/
  below : α → α → Bool
  /-- The numbers are equal. -/
  same : α → α → Bool

instance : Quantity Float where
  count := Float.ofNat
  missing := 0.0 / 0.0
  bottom := -1.0 / 0.0
  top := 1.0 / 0.0
  isMissing := Float.isNaN
  isFinite := Float.isFinite
  size := Float.abs
  root := Float.sqrt
  below a b := a < b
  same a b := a == b

namespace Quantity

variable {α : Type} [Quantity α]

/-- Zero. -/
def zero : α := count 0

/-- One. -/
def one : α := count 1

/-- One hundred, the whole in percent. -/
def hundred : α := count 100

/-- The sum of the numbers, added from the left. -/
def sum (xs : List α) : α := xs.foldl (· + ·) zero

/-- The numbers that are present, in their order. -/
def present (xs : List α) : List α := xs.filter (!isMissing ·)

end Quantity

end EquityScreen
