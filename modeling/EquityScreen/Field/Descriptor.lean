import EquityScreen.Condition.Wire

/-!
# Fields

A field is something a row can be screened by. Its category says where its value comes from: basic and fundamental fields are
stored, technical ones are computed from bars. Its kind says what its literals are: numbers, or texts for every other kind.
-/

namespace EquityScreen

open Json

/-- Where the value of a field comes from. -/
inductive Category where
  | basic | fundamental | technical
  deriving DecidableEq, Repr

/-- What a field holds. -/
inductive Kind where
  | number | string | date
  deriving DecidableEq, Repr

/-- The extent of a number over all rows. -/
structure Statistics where
  least : Option Float
  greatest : Option Float
  mean : Option Float
  count : Int

/-- A field. -/
structure Descriptor where
  name : String
  title : String
  description : String
  category : Category
  kind : Kind
  operators : List Operator
  measure : Option String
  statistics : Option Statistics

namespace Category

/-- The name of a category. -/
def name : Category → String
  | basic => "basic"
  | fundamental => "fundamental"
  | technical => "technical"

/-- The category of a document. -/
def ofJson (v : Json) : Read Category := do
  match ← asName v with
  | "basic" => return basic
  | "fundamental" => return fundamental
  | "technical" => return technical
  | _ => throw .shape

end Category

namespace Kind

/-- The name of a kind. -/
def name : Kind → String
  | number => "number"
  | string => "string"
  | date => "date"

/-- The kind of a document. -/
def ofJson (v : Json) : Read Kind := do
  match ← asName v with
  | "number" => return number
  | "string" => return string
  | "date" => return date
  | _ => throw .shape

end Kind

namespace Statistics

/-- The document of the statistics. -/
def toJson (s : Statistics) : Json :=
  .object [("min", orNull .real s.least), ("max", orNull .real s.greatest), ("avg", orNull .real s.mean),
    ("count", .int s.count)]

/-- The fields of statistics. -/
def names : List (List String) := [["min"], ["max"], ["avg"], ["count"]]

/-- The statistics of a document. -/
def ofJson (v : Json) : Read Statistics := do
  let fs ← Json.fields names v
  return ⟨← fs.mayLack 0 asNumber, ← fs.mayLack 1 asNumber, ← fs.mayLack 2 asNumber, ← fs.required 3 asWhole⟩

end Statistics

namespace Descriptor

/-- The field may be compared by the operator. -/
def supports (d : Descriptor) (op : Operator) : Bool :=
  d.operators.contains op

/-- The field holds numbers. -/
def isNumeric (d : Descriptor) : Bool :=
  d.kind == .number

/-- The document of a field; a measure and statistics that are absent are left out. -/
def toJson (d : Descriptor) : Json :=
  .object ([("name", .text d.name), ("display_name", .text d.title), ("description", .text d.description),
      ("category", .text d.category.name), ("data_type", .text d.kind.name),
      ("supported_operators", .texts (d.operators.map Operator.symbol))] ++
    d.measure.toList.map (fun m => ("unit", .text m)) ++
    d.statistics.toList.map (fun s => ("statistics", s.toJson)))

/-- The fields of a field's record. -/
def names : List (List String) :=
  [["name"], ["display_name"], ["description"], ["category"], ["data_type"], ["supported_operators"], ["unit"],
    ["statistics"]]

/-- The field of a document. -/
def ofJson (v : Json) : Read Descriptor := do
  let fs ← Json.fields names v
  return {
    name := ← fs.required 0 asText
    title := ← fs.required 1 asText
    description := ← fs.required 2 asText
    category := ← fs.required 3 Category.ofJson
    kind := ← fs.required 4 Kind.ofJson
    operators := ← fs.required 5 (asList Operator.ofJson)
    measure := ← fs.mayLack 6 asText
    statistics := ← fs.mayLack 7 Statistics.ofJson }

end Descriptor

end EquityScreen
