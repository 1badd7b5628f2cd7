import EquityScreen.Evaluation.Comparison
import EquityScreen.Series.Basic

/-!
# Evaluating a condition for one symbol

A condition is evaluated against the last day of a series, with a snapshot for the fields that are no columns of it, or
against a snapshot alone. A field that is absent or missing never matches, whatever the operator, and a comparison that
fails is no match. A crossing looks at the last two days of a series: its left side was on one side of the right side, or
touched it, and is on the other side now; it never matches a snapshot alone.
-/

namespace EquityScreen

/-- What is stored of one symbol: field values by name. -/
abbrev Snapshot := Named Value

/-- What a condition is evaluated against. -/
inductive Context where
  /-- The last day of a series, and a snapshot for fields that are no columns of it. -/
  | series (s : Series) (snapshot : Option Snapshot)
  /-- A snapshot alone. -/
  | snapshot (s : Snapshot)

namespace Context

/-- The value of a field now. A column of the series counts even where it is empty. -/
def current? (ctx : Context) (field : String) : Option Value :=
  match ctx with
  | series s snap =>
    if s.columns.contains field then (s.last? field).map .number else snap.bind (·.get? field)
  | snapshot s => s.get? field

/-- The value of a field now, if it is not missing. -/
def present? (ctx : Context) (field : String) : Option Value :=
  (ctx.current? field).filter (!·.isMissing)

/-- The number of a column so many days before the last, if it is not missing. A snapshot has no past. -/
def past? (ctx : Context) (field : String) (back : Nat) : Option Float :=
  match ctx with
  | series s _ => (s.fromEnd? field back).filter (!·.isNaN)
  | snapshot _ => none

/-- The literal that the right side of a comparison stands for now. -/
def operand? (ctx : Context) : Operand → Option Literal
  | .literal l => some l
  | .field name => (ctx.present? name).map Literal.ofValue

/-- A comparison that is no crossing. -/
def compareLeaf (ctx : Context) (l : Leaf) : Except ComparisonError Bool :=
  match ctx.present? l.field with
  | none => .ok false
  | some left =>
    match ctx.operand? l.right with
    | none => .ok false
    | some right => Comparison.compare left l.op right

/-- The right side of a crossing so many days before the last; a literal stays where it is. -/
def line? (ctx : Context) (right : Operand) (back : Nat) : Option Float :=
  match right with
  | .field name => ctx.past? name back
  | .literal l => l.asNumber.filter (!·.isNaN)

/-- The two sides of a crossing, before and now. -/
def crossing? (ctx : Context) (l : Leaf) : Option (Float × Float × Float × Float) := do
  return (← ctx.past? l.field 1, ← ctx.line? l.right 1, ← ctx.past? l.field 0, ← ctx.line? l.right 0)

/-- A crossing. -/
def crosses (ctx : Context) (l : Leaf) : Bool :=
  match ctx with
  | snapshot _ => false
  | series .. =>
    match ctx.crossing? l with
    | none => false
    | some (a1, b1, a0, b0) =>
      match l.op with
      | .crossUp => a1 ≤ b1 && b0 < a0
      | .crossDown => b1 ≤ a1 && a0 < b0
      | _ => false

/-- The comparison matches. -/
def matchesLeaf (ctx : Context) (l : Leaf) : Bool :=
  if l.op.isCross then ctx.crosses l
  else
    match ctx.compareLeaf l with
    | .ok b => b
    | .error _ => false

mutual

/-- The condition matches. -/
def satisfies (ctx : Context) : Condition → Bool
  | .leaf l => ctx.matchesLeaf l
  | .group .all children => satisfiesAll ctx children
  | .group .any children => satisfiesAny ctx children

/-- Every condition matches. -/
def satisfiesAll (ctx : Context) : List Condition → Bool
  | [] => true
  | c :: rest => satisfies ctx c && satisfiesAll ctx rest

/-- Some condition matches. -/
def satisfiesAny (ctx : Context) : List Condition → Bool
  | [] => false
  | c :: rest => satisfies ctx c || satisfiesAny ctx rest

end

end Context

end EquityScreen
