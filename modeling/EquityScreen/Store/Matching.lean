import EquityScreen.Store.Affinity
import EquityScreen.Store.Filter

/-!
# Values as the store compares them

The store compares numbers with numbers, texts with texts by their characters, and takes every number for less than any text.
Beside a column of numbers a text that reads as a number is compared as that number, and beside a column of texts a number is
compared as a text.
-/

namespace EquityScreen

namespace Relation

/-- The relation between two numbers. -/
def numbers : Relation → Float → Float → Bool
  | gt, x, y => y < x
  | lt, x, y => x < y
  | gte, x, y => y ≤ x
  | lte, x, y => x ≤ y
  | eq, x, y => x == y
  | ne, x, y => x != y

/-- The relation between two texts, ordered by their characters. -/
def texts : Relation → String → String → Bool
  | gt, s, t => t < s
  | lt, s, t => s < t
  | gte, s, t => !(s < t)
  | lte, s, t => !(t < s)
  | eq, s, t => s == t
  | ne, s, t => s != t

/-- The relation between two things in the order. -/
def ordered : Relation → Ordering → Bool
  | gt, o => o == .gt
  | lt, o => o == .lt
  | gte, o => o != .lt
  | lte, o => o != .gt
  | eq, o => o == .eq
  | ne, o => o != .eq

end Relation

/-- A value as the store compares it. A text that was read as a whole number of 64 bits is compared as it is and not as the
nearest double. -/
inductive StoredValue where
  | number (x : Float)
  | whole (n : Int)
  | text (s : String)

/-- The order of a whole number and a double that is a number. -/
def orderWhole (n : Int) (x : Float) : Ordering :=
  if x.isInf then (if x < 0.0 then .gt else .lt)
  else
    let d := Dyadic.ofBits x.toBits
    let (numerator, denominator) := scaleTwo d.mantissa d.exponent
    compare (n * denominator) (if signBit x then -(numerator : Int) else numerator)

/-- The text that the store writes a value as. -/
def Value.storeText : Value → String
  | number x => storedText x
  | text s => s

namespace StoredValue

/-- The value as it is. -/
def ofValue : Value → StoredValue
  | .number x => number x
  | .text s => text s

/-- The value as a number, where it reads as one. -/
def numeric : Value → StoredValue
  | .number x => number x
  | .text s =>
    match storedNumber? s with
    | some n =>
      match n.whole? with
      | some k => whole k
      | none => number n.toFloat
    | none => text s

/-- The value as a text. -/
def textual (v : Value) : StoredValue := text v.storeText

end StoredValue

/-- The relation between two values; numbers come before texts. -/
def Relation.holds (rel : Relation) : StoredValue → StoredValue → Bool
  | .number x, .number y => rel.numbers x y
  | .whole n, .whole k => rel.ordered (compare n k)
  | .whole n, .number y => rel.ordered (orderWhole n y)
  | .number x, .whole k => rel.ordered (orderWhole k x).swap
  | .text s, .text t => rel.texts s t
  | .number _, .text _ | .whole _, .text _ => rel.ordered .lt
  | .text _, .number _ | .text _, .whole _ => rel.ordered .gt

end EquityScreen
