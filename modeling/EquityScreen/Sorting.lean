import EquityScreen.Condition.Literal
import EquityScreen.Decimal.Order
import EquityScreen.Json.Draft.Record
import EquityScreen.Text.Ascii

/-!
# Sort keys

A sort key is a field and a direction. The direction is read in any case; a key without one is descending. In a document a
bad direction is reported with its text, unless another fault comes before it.

Values are ordered numbers first. What has no value comes last in either direction.
-/

namespace EquityScreen

open Json

/-- Which end of an order comes first. -/
inductive Direction where
  | asc | desc
  deriving DecidableEq, Repr

namespace Direction

/-- The name of a direction. -/
def name : Direction → String
  | asc => "asc"
  | desc => "desc"

/-- The direction a text names, in any case. -/
def ofText (s : String) : Read Direction :=
  match Text.foldAscii s with
  | "asc" => .ok asc
  | "desc" => .ok desc
  | other => .error (.direction other)

/-- The direction of a document. -/
def ofJson (v : Json) : Read Direction := do ofText (← asText v)

end Direction

/-- A field to sort by. -/
structure SortKey where
  field : String
  direction : Direction
  deriving DecidableEq, Repr

namespace SortKey

/-- The fields of a sort key, the name of the field being none until it is given. -/
def fields : List (Draft.Field (Option String × Direction)) :=
  [⟨["field"], fun d k => return (some (← d.readScalar asText), k.2)⟩,
    ⟨["direction"], fun d k => return (k.1, ← d.readScalar Direction.ofJson)⟩]

/-- The sort key of a draft; without a direction it is descending. -/
def ofDraft (d : Draft) : Read SortKey := do
  match ← d.readRecord fields (none, .desc) with
  | (some field, direction) => return ⟨field, direction⟩
  | (none, _) => throw .shape

/-- The sort key of a document. -/
def ofJson (v : Json) : Read SortKey := ofDraft (.ofJson v)

/-- The document of a sort key. -/
def toJson (k : SortKey) : Json :=
  .object [("field", .text k.field), ("direction", .text k.direction.name)]

end SortKey

/-- The order of two values of a field: numbers before texts. -/
def Value.order : Value → Value → Ordering
  | .number x, .number y => compare (place x) (place y)
  | .text s, .text t => compare s t
  | .number _, .text _ => .lt
  | .text _, .number _ => .gt

/-- The order in a direction. -/
def Direction.apply : Direction → Ordering → Ordering
  | .asc, o => o
  | .desc, o => o.swap

/-- The order of two values of which either may be absent: an absent one comes last in either direction. -/
def Direction.absentLast (d : Direction) : Option Value → Option Value → Ordering
  | none, none => .eq
  | none, some _ => .gt
  | some _, none => .lt
  | some v, some w => d.apply (v.order w)

/-- The field that results are sorted by when a request names none. -/
def defaultSortField : String := "total_mv"

end EquityScreen
