import EquityScreen.Condition.Wire
import EquityScreen.Sorting
import EquityScreen.Store.Column

/-!
# Filters of the snapshot table

A filter is a list of predicates that must all hold. A predicate names its columns in some way `κ`: by their names where it
comes from a document or from a condition (`Predicate String`), by the columns themselves once the names are checked
(`Predicate Column`). Checking (`Predicate.check`) is the only way from the one to the other, so whatever is rendered or
matched names columns of the table and nothing else.
-/

namespace EquityScreen

open Json

/-- How a predicate compares two values. -/
inductive Relation where
  | gt | lt | gte | lte | eq | ne
  deriving DecidableEq, Repr

namespace Relation

/-- Every relation. -/
def all : List Relation := [gt, lt, gte, lte, eq, ne]

/-- The name of a relation. -/
def name : Relation → String
  | gt => "gt"
  | lt => "lt"
  | gte => "gte"
  | lte => "lte"
  | eq => "eq"
  | ne => "ne"

/-- The relation of a document. An empty object beside the name says as little as null. -/
def ofJson (v : Json) : Read Relation := do
  let given ← match v with
    | .object [(name, .object [])] => .ok name
    | _ => asName v
  match all.find? (·.name == given) with
  | some r => return r
  | none => throw .shape

/-- The relation of an operator that compares two single values. -/
def ofOperator? : Operator → Option Relation
  | .gt => some gt
  | .lt => some lt
  | .gte => some gte
  | .lte => some lte
  | .eq => some eq
  | .ne => some ne
  | _ => none

end Relation

/-- A condition on one row of the table, its columns named by `κ`. -/
inductive Predicate (κ : Type) where
  | compare (column : κ) (rel : Relation) (value : Value)
  | compareColumns (column : κ) (rel : Relation) (other : κ)
  /-- Both bounds belong to the range. -/
  | range (column : κ) (low high : Float)
  | among (column : κ) (values : List Value)
  | outside (column : κ) (values : List Value)
  | contains (column : κ) (needle : String)

/-- A column to sort the rows of the table by. -/
structure ColumnSort (κ : Type) where
  column : κ
  direction : Direction

/-- A filter or a sort names a column that the table does not have. -/
structure UnknownColumn where
  name : String
  deriving DecidableEq, Repr

/-- The text of the error. -/
def UnknownColumn.message (e : UnknownColumn) : String := s!"Unknown column: {e.name}"

/-- The column of a name. -/
def Column.check (name : String) : Except UnknownColumn Column :=
  match Column.ofName? name with
  | some c => .ok c
  | none => .error ⟨name⟩

namespace Predicate

variable {κ : Type}

/-- The column that a predicate is about. -/
def column : Predicate κ → κ
  | compare c _ _ | compareColumns c _ _ | range c _ _ | among c _ | outside c _ | contains c _ => c

/-- The predicate with its columns checked, the one it is about before the one it is compared with. -/
def check : Predicate String → Except UnknownColumn (Predicate Column)
  | compare c rel v => do return compare (← Column.check c) rel v
  | compareColumns c rel d => do
    let left ← Column.check c
    return compareColumns left rel (← Column.check d)
  | range c low high => do return range (← Column.check c) low high
  | among c vs => do return among (← Column.check c) vs
  | outside c vs => do return outside (← Column.check c) vs
  | contains c needle => do return contains (← Column.check c) needle

/-- The document of a predicate. -/
def toJson : Predicate String → Json
  | compare c rel v =>
    .object [("kind", .text "compare"), ("column", .text c), ("cmp", .text rel.name), ("value", v.toJson)]
  | compareColumns c rel d =>
    .object [("kind", .text "compare_columns"), ("column", .text c), ("cmp", .text rel.name), ("other", .text d)]
  | range c low high =>
    .object [("kind", .text "range"), ("column", .text c), ("lo", .real low), ("hi", .real high)]
  | among c vs => .object [("kind", .text "in"), ("column", .text c), ("values", .list (vs.map Value.toJson))]
  | outside c vs => .object [("kind", .text "not_in"), ("column", .text c), ("values", .list (vs.map Value.toJson))]
  | contains c needle =>
    .object [("kind", .text "contains"), ("column", .text c), ("needle", .text needle)]

/-- The kind a predicate is written with, and the document of what else it says. The kind is the first item of a list, and
the one member named `kind` of an object. -/
def kindOf : Json → Read (String × Json)
  | .list (k :: rest) => do return (← asText k, .list rest)
  | .object members =>
    match members.filter (·.1 == "kind") with
    | [(_, k)] => do return (← asText k, .object (members.filter (·.1 != "kind")))
    | _ => .error .shape
  | _ => .error .shape

/-- The predicate of a document. -/
def ofJson (v : Json) : Read (Predicate String) := do
  let (kind, rest) ← kindOf v
  match kind with
  | "compare" =>
    let fs ← Json.fields [["column"], ["cmp"], ["value"]] rest
    return compare (← fs.required 0 asText) (← fs.required 1 Relation.ofJson) (← fs.required 2 Value.ofJson)
  | "compare_columns" =>
    let fs ← Json.fields [["column"], ["cmp"], ["other"]] rest
    return compareColumns (← fs.required 0 asText) (← fs.required 1 Relation.ofJson) (← fs.required 2 asText)
  | "range" =>
    let fs ← Json.fields [["column"], ["lo"], ["hi"]] rest
    return range (← fs.required 0 asText) (← fs.required 1 asNumber) (← fs.required 2 asNumber)
  | "in" =>
    let fs ← Json.fields [["column"], ["values"]] rest
    return among (← fs.required 0 asText) (← fs.required 1 (asList Value.ofJson))
  | "not_in" =>
    let fs ← Json.fields [["column"], ["values"]] rest
    return outside (← fs.required 0 asText) (← fs.required 1 (asList Value.ofJson))
  | "contains" =>
    let fs ← Json.fields [["column"], ["needle"]] rest
    return contains (← fs.required 0 asText) (← fs.required 1 asText)
  | _ => throw .shape

end Predicate

namespace ColumnSort

/-- The sort with its column checked. -/
def check (s : ColumnSort String) : Except UnknownColumn (ColumnSort Column) := do
  return ⟨← Column.check s.column, s.direction⟩

/-- The document of a sort. -/
def toJson (s : ColumnSort String) : Json :=
  .object [("column", .text s.column), ("order", .text s.direction.name)]

/-- The sort of a document; its order is written in small letters. -/
def ofJson (v : Json) : Read (ColumnSort String) := do
  let fs ← Json.fields [["column"], ["order"]] v
  let column ← fs.required 0 asText
  let order ← fs.required 1 asName
  match [Direction.asc, .desc].find? (·.name == order) with
  | some d => return ⟨column, d⟩
  | none => throw .shape

end ColumnSort

/-- Predicates that must all hold, with the names of their columns. -/
abbrev Filter := List (Predicate String)

end EquityScreen
