import EquityScreen.Condition.Literal
import EquityScreen.Condition.Operator
import EquityScreen.Text.Order

/-!
# Conditions

A condition is one comparison, a leaf, or a group of conditions of which all or any must hold. A leaf compares a field with
a literal or with another field of the same row. A tree is flat when it is one leaf or an all-group of leaves.
-/

namespace EquityScreen

/-- The right-hand side of a comparison. -/
inductive Operand where
  | literal (l : Literal)
  | field (name : String)

/-- One comparison. -/
structure Leaf where
  field : String
  op : Operator
  right : Operand

/-- How the conditions of a group combine. -/
inductive Logic where
  | all | any
  deriving DecidableEq, Repr

/-- A tree of comparisons. -/
inductive Condition where
  | leaf (l : Leaf)
  | group (logic : Logic) (children : List Condition)

namespace Leaf

/-- The comparison of a field with a literal. -/
def withLiteral (field : String) (op : Operator) (l : Literal) : Leaf := ⟨field, op, .literal l⟩

/-- The comparison of a field with another field. -/
def against (field : String) (op : Operator) (other : String) : Leaf := ⟨field, op, .field other⟩

/-- The field on the right. -/
def rightField (l : Leaf) : Option String :=
  match l.right with
  | .field name => some name
  | .literal _ => none

/-- The literal on the right. -/
def rightLiteral (l : Leaf) : Option Literal :=
  match l.right with
  | .literal v => some v
  | .field _ => none

/-- The fields a comparison names. -/
def fields (l : Leaf) : List String :=
  l.field :: l.rightField.toList

end Leaf

namespace Condition

/-- The group of which every condition must hold; with no condition it holds. -/
def all (children : List Condition) : Condition := .group .all children

/-- The group of which some condition must hold; with no condition it does not hold. -/
def any (children : List Condition) : Condition := .group .any children

/-- The condition that every row meets. -/
def matchAll : Condition := .all []

mutual

/-- The comparisons of a tree, from left to right. -/
def leaves : Condition → List Leaf
  | .leaf l => [l]
  | .group _ children => leavesAll children

/-- The comparisons of trees, from left to right. -/
def leavesAll : List Condition → List Leaf
  | [] => []
  | c :: rest => leaves c ++ leavesAll rest

end

/-- The condition is one comparison. -/
def asLeaf? : Condition → Option Leaf
  | .leaf l => some l
  | .group .. => none

/-- The comparisons of a flat tree. -/
def flatLeaves? : Condition → Option (List Leaf)
  | .leaf l => some [l]
  | .group .all children => children.mapM asLeaf?
  | .group .any _ => none

mutual

/-- Every comparison changed; the shape of the tree stays. -/
def mapLeaves (f : Leaf → Leaf) : Condition → Condition
  | .leaf l => .leaf (f l)
  | .group logic children => .group logic (mapLeavesAll f children)

/-- Every comparison of every tree changed. -/
def mapLeavesAll (f : Leaf → Leaf) : List Condition → List Condition
  | [] => []
  | c :: rest => mapLeaves f c :: mapLeavesAll f rest

end

/-- The fields a tree names on either side, without repetition, in increasing order. -/
def fields (c : Condition) : List String :=
  Text.sortNames (c.leaves.flatMap Leaf.fields)

end Condition

end EquityScreen
