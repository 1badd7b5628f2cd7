import EquityScreen.Field.Registry
import EquityScreen.Store.Filter

/-!
# Conditions as filters of the store

A flat condition becomes a filter, one predicate for each comparison, after its names are those of the registry. A value is
bound with the kind of its column: a text that reads as a number becomes that number for a column of numbers, and a column
of texts takes texts only. Sort keys become sorts of columns; without any, the largest market value comes first.
-/

namespace EquityScreen

/-- Why a condition has no filter. -/
inductive PushdownError where
  /-- The condition is neither one comparison nor an all-group of comparisons. -/
  | groupNotSupported
  | unknownField (name : String)
  /-- The field is computed from bars. -/
  | notStored (name : String)
  | unsupportedOperator (field : String) (op : Operator)
  | invalidValue (field : String) (op : Operator)
  deriving DecidableEq, Repr

/-- The text of an error. -/
def PushdownError.message : PushdownError → String
  | .groupNotSupported => "nested or OR-ed condition groups cannot be pushed down to the store"
  | .unknownField name => s!"unknown field '{name}'"
  | .notStored name => s!"field '{name}' is computed from bars and is not stored"
  | .unsupportedOperator field op => s!"operator '{op.symbol}' on '{field}' has no store equivalent"
  | .invalidValue field op => s!"invalid value for '{op.symbol}' on '{field}'"

/-- The value of an option, or the error. -/
def orError {ε α : Type} (e : ε) : Option α → Except ε α
  | some a => .ok a
  | none => .error e

/-- The value a literal binds for the field. -/
def Descriptor.bindable? (d : Descriptor) : Literal → Option Value
  | .list _ => none
  | .number x => if d.isNumeric then some (.number x) else none
  | .text s => if d.isNumeric then (Decimal.read s).map .number else some (.text s)

namespace Registry

/-- The field of a name, if it is stored. -/
def storedField (r : Registry) (name : String) : Except PushdownError Descriptor := do
  let d ← orError (.unknownField name) (r.resolve? name)
  if d.category == .technical then throw (.notStored name)
  return d

/-- The predicate that compares a stored field with a literal. -/
def literalPredicate (d : Descriptor) (field : String) (op : Operator) (l : Literal) :
    Except PushdownError (Predicate String) := do
  let invalid := PushdownError.invalidValue field op
  match op with
  | .between =>
    let (low, high) ← orError invalid l.asBounds
    return .range d.name low high
  | .isIn => return .among d.name (← orError invalid (l.asList.bind (·.mapM d.bindable?)))
  | .notIn => return .outside d.name (← orError invalid (l.asList.bind (·.mapM d.bindable?)))
  | .contains => return .contains d.name (← orError invalid l.asText)
  | _ =>
    let rel ← orError (.unsupportedOperator field op) (Relation.ofOperator? op)
    return .compare d.name rel (← orError invalid (d.bindable? l))

/-- The predicate of a comparison that uses the names of the registry. -/
def predicate (r : Registry) (l : Leaf) : Except PushdownError (Predicate String) := do
  let d ← r.storedField l.field
  match l.right with
  | .field other =>
    let rel ← orError (.unsupportedOperator l.field l.op) (Relation.ofOperator? l.op)
    return .compareColumns d.name rel (← r.storedField other).name
  | .literal v => literalPredicate d l.field l.op v

/-- The filter of comparisons. -/
def filterOf (r : Registry) (leaves : List Leaf) : Except PushdownError Filter :=
  leaves.mapM fun l => r.predicate l.normalize

/-- The filter of a condition. -/
def pushdown (r : Registry) (c : Condition) : Except PushdownError Filter := do
  r.filterOf (← orError .groupNotSupported c.flatLeaves?)

end Registry

/-- The sorts of sort keys. -/
def columnSorts (keys : List SortKey) : List (ColumnSort String) :=
  if keys.isEmpty then [⟨defaultSortField, .desc⟩] else keys.map fun k => ⟨k.normalize.field, k.direction⟩

end EquityScreen
