import EquityScreen.Calendar.Date
import EquityScreen.Json.Record
import EquityScreen.Named

/-!
# Bars and series

A bar is one day of trading. A series holds days in order of time and columns of numbers, one number for each day; a number
that is missing is no number. Columns of another length than the series are refused by `Series.insert?`.
-/

namespace EquityScreen

open Json

/-- One day of trading. -/
structure Bar where
  date : Date
  openPrice : Float
  high : Float
  low : Float
  close : Float
  volume : Float
  amount : Option Float

/-- The day of a document. -/
def Date.ofJson (v : Json) : Read Date := do
  match Date.read? (← asText v) with
  | some d => return d
  | none => throw .shape

namespace Bar

/-- The fields of a bar. -/
def names : List (List String) := [["date"], ["open"], ["high"], ["low"], ["close"], ["volume"], ["amount"]]

/-- The bar of a document. -/
def ofJson (v : Json) : Read Bar := do
  let fs ← Json.fields names v
  return {
    date := ← fs.required 0 Date.ofJson
    openPrice := ← fs.required 1 asNumber
    high := ← fs.required 2 asNumber
    low := ← fs.required 3 asNumber
    close := ← fs.required 4 asNumber
    volume := ← fs.required 5 asNumber
    amount := ← fs.orElse 6 none (asOptional asNumber) }

end Bar

/-- Days and columns of numbers. -/
structure Series where
  dates : List Date
  columns : Named (List Float)

namespace Series

/-- How many days there are. -/
def length (s : Series) : Nat := s.dates.length

/-- Every column has a number for each day. -/
def Even (s : Series) : Prop := ∀ e ∈ s.columns.entries, e.2.length = s.length

/-- The numbers of a column. -/
def column? (s : Series) (name : String) : Option (List Float) := s.columns.get? name

/-- The series with a column. -/
def insert (s : Series) (name : String) (values : List Float) : Series :=
  { s with columns := s.columns.insert name values }

/-- The series with a column, if it has a number for each day. -/
def insert? (s : Series) (name : String) (values : List Float) : Option Series :=
  if values.length = s.length then some (s.insert name values) else none

/-- The number of a column so many days before the last. -/
def fromEnd? (s : Series) (name : String) (back : Nat) : Option Float := do
  (← s.column? name).reverse[back]?

/-- The last number of a column. -/
def last? (s : Series) (name : String) : Option Float := s.fromEnd? name 0

/-- The series of bars, in order of time; bars of one day keep their order. -/
def ofBars (bars : List Bar) : Series :=
  let sorted := bars.mergeSort fun a b => a.date.le b.date
  { dates := sorted.map (·.date)
    columns := Named.ofList
      [("open", sorted.map (·.openPrice)), ("high", sorted.map (·.high)), ("low", sorted.map (·.low)),
        ("close", sorted.map (·.close)), ("volume", sorted.map (·.volume)),
        ("amount", sorted.map fun b => b.amount.getD notANumber)] }

end Series

end EquityScreen
