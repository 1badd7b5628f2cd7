import EquityScreen.Field.Registry

/-!
# Validation of conditions and sort keys

A comparison is accepted when the registry knows its field, the field supports its operator, and its right side fits: a
field of the same kind for the operators that compare two values, two numeric bounds for `between`, a list of fitting
literals for `in` and `not_in`, a text for `contains`, a fitting literal for the others. Every comparison that is not
accepted is reported once, with its place and the first reason against it.
-/

namespace EquityScreen

open Json

/-- Where in a request something is wrong. -/
inductive Place where
  /-- The node of the condition tree reached by these child numbers from the root. -/
  | condition (path : List Nat)
  /-- The sort key of this number. -/
  | sortKey (i : Nat)
  deriving DecidableEq, Repr

/-- The place as it is written. -/
def Place.toText : Place → String
  | .condition path => path.foldl (fun s i => s ++ s!".children[{i}]") "conditions"
  | .sortKey i => s!"order_by[{i}]"

/-- Why a comparison or a sort key is not accepted. -/
inductive Reason where
  | unknownField
  | unsupportedOperator (op : Operator)
  | malformedBetween
  | notNumeric
  | expectedList (op : Operator)
  | expectedText (op : Operator)
  | rightField (other : String)
  deriving DecidableEq, Repr

/-- What is wrong at a place. -/
structure Issue where
  place : Place
  field : String
  reason : Reason
  deriving DecidableEq, Repr

namespace Issue

/-- What is wrong, without the place. -/
def complaint (field : String) : Reason → String
  | .unknownField => s!"unknown field '{field}'"
  | .unsupportedOperator op => s!"operator '{op.symbol}' is not supported for field '{field}'"
  | .malformedBetween => s!"'between' on '{field}' needs exactly two numeric bounds"
  | .notNumeric => s!"'{field}' needs a numeric value"
  | .expectedList op => s!"'{op.symbol}' on '{field}' needs a list value"
  | .expectedText op => s!"'{op.symbol}' on '{field}' needs a text value"
  | .rightField other => s!"right-hand field '{other}' cannot be compared with '{field}'"

/-- The text of an issue. -/
def message (i : Issue) : String :=
  i.place.toText ++ ": " ++ complaint i.field i.reason

/-- The document of an issue. -/
def toJson (i : Issue) : Json :=
  .object [("path", .text i.place.toText), ("field", .text i.field), ("message", .text i.message)]

/-- The text of all issues of a request. -/
def summary (issues : List Issue) : String :=
  s!"{issues.length} invalid condition(s): " ++ Text.join "; " (issues.map message)

end Issue

namespace Descriptor

/-- The literal, which is no list, is one the field can hold. -/
def fits (d : Descriptor) : Literal → Bool
  | .list _ => false
  | .text s => !d.isNumeric || (Literal.text s).asNumber.isSome
  | .number _ => d.isNumeric

/-- The reason against a literal that does not fit. -/
def misfit (d : Descriptor) (op : Operator) : Literal → Reason
  | .list _ => .expectedText op
  | _ => if d.isNumeric then .notNumeric else .expectedText op

/-- The first reason against a literal compared with the field. -/
def literalReason? (d : Descriptor) (op : Operator) (l : Literal) : Option Reason :=
  match op with
  | .between => if l.asBounds.isSome then none else some .malformedBetween
  | .isIn | .notIn =>
    match l.asList with
    | none => some (.expectedList op)
    | some items => (items.find? (!d.fits ·)).map (d.misfit op)
  | .contains => if l.asText.isSome then none else some (.expectedText op)
  | _ => if d.fits l then none else some (d.misfit op l)

end Descriptor

namespace Registry

/-- The first reason against a comparison. -/
def leafReason? (r : Registry) (l : Leaf) : Option Reason :=
  match r.resolve? l.field with
  | none => some .unknownField
  | some d =>
    if !d.supports l.op then some (.unsupportedOperator l.op)
    else
      match l.right with
      | .field other =>
        let comparable := (r.resolve? other).any (·.kind == d.kind)
        if !comparable || l.op.takesList || l.op == .contains then some (.rightField other) else none
      | .literal v => d.literalReason? l.op v

mutual

/-- The issues of the tree at a path, from left to right. The path is kept from the node up. -/
def issuesAt (r : Registry) (up : List Nat) : Condition → List Issue
  | .leaf l =>
    match r.leafReason? l with
    | some reason => [⟨.condition up.reverse, l.field, reason⟩]
    | none => []
  | .group _ children => issuesFrom r up 0 children

/-- The issues of the children of a node, the first of which has the number `i`. -/
def issuesFrom (r : Registry) (up : List Nat) (i : Nat) : List Condition → List Issue
  | [] => []
  | c :: rest => issuesAt r (i :: up) c ++ issuesFrom r up (i + 1) rest

end

/-- The issues of a condition. -/
def issues (r : Registry) (c : Condition) : List Issue :=
  r.issuesAt [] c

/-- The issues of sort keys: those whose field is unknown. -/
def sortIssues (r : Registry) (keys : List SortKey) : List Issue :=
  keys.zipIdx.filterMap fun (k, i) =>
    if (r.resolve? k.field).isSome then none else some ⟨.sortKey i, k.field, .unknownField⟩

/-- The issues of a request: those of the condition, then those of the sort keys. -/
def check (r : Registry) (c : Condition) (keys : List SortKey) : List Issue :=
  r.issues c ++ r.sortIssues keys

/-- What a client is told about a condition. -/
structure Report where
  issues : List Issue
  warnings : List String

/-- The condition has no issue. -/
def Report.valid (rep : Report) : Bool := rep.issues.isEmpty

/-- The document of a report. -/
def Report.toJson (rep : Report) : Json :=
  .object [("valid", .bool rep.valid), ("errors", .list (rep.issues.map Issue.toJson)), ("warnings", .texts rep.warnings)]

/-- The report on a condition, with a warning for each technical field it names. -/
def report (r : Registry) (c : Condition) : Report :=
  ⟨r.issues c, (c.fields.filter r.isTechnical).map fun f =>
    s!"technical field '{f}' forces per-symbol evaluation over a capped universe"⟩

end Registry

end EquityScreen
