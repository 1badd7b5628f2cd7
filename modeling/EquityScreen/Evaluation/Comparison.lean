import EquityScreen.Condition.Basic
import EquityScreen.Text.Ascii

/-!
# Comparing a value with a literal

Order and ranges need numbers on both sides, where a text that reads as a number is one. Equality of two texts is exact; a
number equals a literal that reads as the same number; a text is never equal to a number. A list of literals matches a value
that equals one of its items, and an item that cannot be compared is no match. A text contains another with ASCII letters
folded. Numbers compare as doubles do, so the mark of a missing number is neither above, below nor equal to any.
-/

namespace EquityScreen

/-- Why a value cannot be compared with a literal. -/
inductive ComparisonError where
  /-- The value or literal, as a message quotes it, is no number. -/
  | notNumeric (quoted : String)
  | malformedBetween
  | expectedList (op : Operator)
  | expectedText (op : Operator)
  /-- The text was compared with a number. -/
  | textAgainstNumber (text : String)
  | crossOver
  deriving DecidableEq, Repr

/-- The text of an error. -/
def ComparisonError.message : ComparisonError → String
  | .notNumeric quoted => s!"'{quoted}' is not numeric"
  | .malformedBetween => "between needs two numeric bounds"
  | .expectedList op => s!"{op.symbol} needs a list value"
  | .expectedText op => s!"{op.symbol} needs text on both sides"
  | .textAgainstNumber text => s!"text '{text}' is never equal to a number"
  | .crossOver => "cross-over operators are evaluated over two rows"

namespace Comparison

/-- The value as a number. -/
def leftNumber (v : Value) : Except ComparisonError Float :=
  match v.asNumber with
  | some x => .ok x
  | none => .error (.notNumeric v.quoted)

/-- The literal as a number. -/
def rightNumber (l : Literal) : Except ComparisonError Float :=
  match l.asNumber with
  | some x => .ok x
  | none => .error (.notNumeric l.quoted)

/-- Both sides as numbers, related. -/
def numbers (rel : Float → Float → Bool) (v : Value) (l : Literal) : Except ComparisonError Bool := do
  let x ← leftNumber v
  let y ← rightNumber l
  return rel x y

/-- The value equals the literal. -/
def equal (v : Value) (l : Literal) : Except ComparisonError Bool :=
  match v, l with
  | _, .list items => .error (.notNumeric (Literal.list items).quoted)
  | .text s, .text t => .ok (s == t)
  | .text s, .number _ => .error (.textAgainstNumber s)
  | .number x, l => numbers (· == ·) (.number x) l

/-- The value equals one of the literals. -/
def among (v : Value) (items : List Literal) : Bool :=
  items.any fun l =>
    match equal v l with
    | .ok b => b
    | .error _ => false

/-- The value lies between the bounds, which belong to the range. -/
def between (v : Value) (l : Literal) : Except ComparisonError Bool :=
  match l.asBounds with
  | none => .error .malformedBetween
  | some (low, high) => do
    let x ← leftNumber v
    return low ≤ x && x ≤ high

/-- The value contains the literal as a text. -/
def contains (op : Operator) (v : Value) (l : Literal) : Except ComparisonError Bool :=
  match v.asText, l.asText with
  | some haystack, some needle => .ok (Text.holdsFolded haystack needle)
  | _, _ => .error (.expectedText op)

/-- The value compared with the literal. -/
def compare (v : Value) (op : Operator) (l : Literal) : Except ComparisonError Bool :=
  match op with
  | .gt => numbers (fun x y => y < x) v l
  | .lt => numbers (fun x y => x < y) v l
  | .gte => numbers (fun x y => y ≤ x) v l
  | .lte => numbers (fun x y => x ≤ y) v l
  | .eq => equal v l
  | .ne => (equal v l).map (!·)
  | .between => between v l
  | .isIn =>
    match l.asList with
    | some items => .ok (among v items)
    | none => .error (.expectedList op)
  | .notIn =>
    match l.asList with
    | some items => .ok (!among v items)
    | none => .error (.expectedList op)
  | .contains => contains op v l
  | .crossUp | .crossDown => .error .crossOver

end Comparison

end EquityScreen
