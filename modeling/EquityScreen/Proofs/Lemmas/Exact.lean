import Mathlib.Algebra.Order.Field.Basic
import Mathlib.Algebra.Field.Rat
import Mathlib.Data.Rat.Sqrt
import EquityScreen.Indicator.Quantity

/-!
# Exact numbers

The numbers of an ordered field, with one more element for a missing value and two for bounds of all others. The arithmetic is
that of doubles without rounding: what has a missing part is missing, a number divided by zero lies at a bound, and zero divided
by zero is missing. Of the root only its domain is fixed; what the root of a number is, is left to the field.

An indicator over exact numbers is its formula. Columns hold numbers and missing values (`Exact.ofOption`), so the bounds only
appear where a ring is empty or a divisor is zero.
-/

namespace EquityScreen

/-- A field with a root for every number. -/
class Rooted (K : Type) where
  /-- The root. -/
  root : K → K

instance : Rooted ℚ := ⟨Rat.sqrt⟩

/-- A number, a missing value, or one of the bounds of all numbers. -/
inductive Exact (K : Type) where
  | missing | bottom | top
  | of (x : K)
  deriving DecidableEq

namespace Exact

variable {K : Type}

/-- A number that may be missing. -/
def ofOption : Option K → Exact K
  | none => missing
  | some x => of x

variable [Field K] [LinearOrder K]

/-- The bound on the side of a number. Zero has none. -/
def bound (x : K) : Exact K := if 0 < x then top else if x < 0 then bottom else missing

/-- The sum. Opposite bounds have none. -/
def add : Exact K → Exact K → Exact K
  | of x, of y => of (x + y)
  | missing, _ | _, missing | top, bottom | bottom, top => missing
  | top, _ | _, top => top
  | bottom, _ | _, bottom => bottom

/-- The number with the other sign. -/
def neg : Exact K → Exact K
  | missing => missing
  | bottom => top
  | top => bottom
  | of x => of (-x)

/-- The product. A bound times zero has none. -/
def mul : Exact K → Exact K → Exact K
  | of x, of y => of (x * y)
  | missing, _ | _, missing => missing
  | of x, top | top, of x => bound x
  | of x, bottom | bottom, of x => bound (-x)
  | top, top | bottom, bottom => top
  | top, bottom | bottom, top => bottom

/-- The quotient. A number divided by zero is the bound on its side. -/
def div : Exact K → Exact K → Exact K
  | of x, of y => if y = 0 then bound x else of (x / y)
  | of _, top | of _, bottom => of 0
  | top, of y => if y < 0 then bottom else top
  | bottom, of y => if y < 0 then top else bottom
  | _, _ => missing

/-- The first lies below the second. Nothing is compared with a missing value. -/
def below : Exact K → Exact K → Bool
  | of x, of y => x < y
  | bottom, of _ | of _, top | bottom, top => true
  | _, _ => false

/-- They are equal. A missing value is not, not even to itself. -/
def same : Exact K → Exact K → Bool
  | of x, of y => x = y
  | bottom, bottom | top, top => true
  | _, _ => false

instance [Rooted K] : Quantity (Exact K) where
  add := add
  sub a b := add a (neg b)
  mul := mul
  div := div
  neg := neg
  count n := of n
  missing := missing
  bottom := bottom
  top := top
  isMissing
    | missing => true
    | _ => false
  isFinite
    | of _ => true
    | _ => false
  size
    | of x => of |x|
    | missing => missing
    | _ => top
  root
    | of x => if x < 0 then missing else of (Rooted.root x)
    | top => top
    | _ => missing
  below := below
  same := same

/-! ## Numbers among exact numbers -/

variable [Rooted K]

@[simp] theorem of_add_of (x y : K) : (of x : Exact K) + of y = of (x + y) := rfl

@[simp] theorem of_sub_of (x y : K) : (of x : Exact K) - of y = of (x - y) := congrArg of (sub_eq_add_neg x y).symm

@[simp] theorem of_mul_of (x y : K) : (of x : Exact K) * of y = of (x * y) := rfl

/-- A quotient is that of the field where the divisor is not zero. -/
theorem of_div_of {y : K} (hy : y ≠ 0) (x : K) : (of x : Exact K) / of y = of (x / y) := if_neg hy

theorem of_div_zero (x : K) : (of x : Exact K) / of 0 = bound x := if_pos rfl

@[simp] theorem neg_of (x : K) : -(of x : Exact K) = of (-x) := rfl

/-- A number that is not negative has a root. -/
theorem root_of {x : K} (hx : 0 ≤ x) : Quantity.root (of x) = of (Rooted.root x) := if_neg (not_lt.2 hx)

/-! ## Counts -/

theorem count_eq (n : Nat) : (Quantity.count n : Exact K) = of (n : K) := rfl

theorem zero_eq : (Quantity.zero : Exact K) = of 0 := congrArg of Nat.cast_zero

theorem one_eq : (Quantity.one : Exact K) = of 1 := congrArg of Nat.cast_one

theorem hundred_eq : (Quantity.hundred : Exact K) = of 100 := congrArg of Nat.cast_ofNat

/-! ## Which of them are numbers -/

@[simp] theorem isFinite_of (x : K) : Quantity.isFinite (of x) = true := rfl

@[simp] theorem isFinite_missing : Quantity.isFinite (missing : Exact K) = false := rfl

@[simp] theorem isMissing_of (x : K) : Quantity.isMissing (of x) = false := rfl

@[simp] theorem isMissing_ofOption (x : Option K) : Quantity.isMissing (ofOption x) = x.isNone := by
  cases x <;> rfl

/-- A number that may be missing is missing or a number. -/
theorem plain_ofOption (x : Option K) : Quantity.isMissing (ofOption x) = true ∨ Quantity.isFinite (ofOption x) = true := by
  cases x
  · exact .inl rfl
  · exact .inr rfl

theorem isFinite_bound (x : K) : Quantity.isFinite (bound x) = false := by
  unfold bound
  split
  · rfl
  · split <;> rfl

/-- What is no number is no part of a product that is one. -/
theorem isFinite_mul {x : Exact K} (h : Quantity.isFinite x = false) (y : K) : Quantity.isFinite (x * of y) = false := by
  cases x with
  | missing => rfl
  | bottom | top => exact isFinite_bound _
  | of x => exact absurd h.symm Bool.false_ne_true

/-! ## The order -/

@[simp] theorem same_of_of (x y : K) : Quantity.same (of x) (of y) = decide (x = y) := rfl

@[simp] theorem below_of_of (x y : K) : Quantity.below (of x) (of y) = decide (x < y) := rfl

theorem below_irrefl (x : Exact K) : Quantity.below x x = false := by
  cases x with
  | of x => exact decide_eq_false (lt_irrefl x)
  | _ => rfl

theorem below_trans {x y z : Exact K} (hxy : Quantity.below x y = true) (hyz : Quantity.below y z = true) :
    Quantity.below x z = true := by
  cases y with
  | missing => cases x <;> exact nomatch hxy
  | bottom => cases x <;> exact nomatch hxy
  | top => cases z <;> exact nomatch hyz
  | of y =>
    cases x with
    | missing | top => exact nomatch hxy
    | bottom =>
      cases z with
      | missing | bottom => exact nomatch hyz
      | top | of z => rfl
    | of x =>
      cases z with
      | missing | bottom => exact nomatch hyz
      | top => rfl
      | of z => exact decide_eq_true ((of_decide_eq_true hxy).trans (of_decide_eq_true hyz))

/-- Nothing is compared with a missing value. -/
theorem below_missing {y : Exact K} (hy : Quantity.isMissing y = true) (x : Exact K) :
    Quantity.below x y = false ∧ Quantity.below y x = false := by
  cases y with
  | missing => exact ⟨by cases x <;> rfl, rfl⟩
  | _ => exact nomatch hy

end Exact

end EquityScreen
