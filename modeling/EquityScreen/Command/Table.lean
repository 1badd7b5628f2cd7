import EquityScreen.Decimal.Fixed
import EquityScreen.Screening.Service

/-!
# Tables

Results and fields are printed as tables, one line for each row. A cell is filled with blanks up to the width of its column,
counted in characters; a longer cell is printed whole. Numbers have two places.
-/

namespace EquityScreen

/-- Blanks up to a width. -/
def blanks (width : Nat) (s : String) : String :=
  String.ofList (List.replicate (width - s.length) ' ')

/-- The cell at the left of its column. -/
def leftCell (width : Nat) (s : String) : String := s ++ blanks width s

/-- The cell at the right of its column. -/
def rightCell (width : Nat) (s : String) : String := blanks width s ++ s

/-- A line under a heading. -/
def ruler (n : Nat) : String := "  " ++ String.ofList (List.replicate n '-')

/-- A number of a table. -/
def tableNumber (x : Float) : String := fixedPlaces 2 x

/-- The value of a field in a table. -/
def Row.cell (r : Row) (field : String) : String :=
  match r.get? field with
  | some (.number x) => tableNumber x
  | some (.text s) => s
  | none => "-"

/-- A line of the table of results. -/
def resultLine (number symbol name close change marketValue earnings : String) : String :=
  "  " ++ Text.join " "
    [rightCell 3 number, " " ++ leftCell 8 symbol, leftCell 12 name, rightCell 10 close, rightCell 8 change,
      rightCell 12 marketValue, rightCell 8 earnings]

/-- The table of a response; `elapsed` is how many milliseconds the screen took. -/
def Response.table (r : Response) (elapsed : Nat) : List String :=
  let late := if r.isPartial then "; PARTIAL" else ""
  let rows := r.items.zipIdx.map fun (row, i) =>
    resultLine (toString (r.page.offset + i + 1)) row.symbol (row.cell "name") (row.cell "close") (row.cell "pct_chg")
      (row.cell "total_mv") (row.cell "pe")
  ["", s!"{r.total} match(es), showing {r.items.length} from offset {r.page.offset} " ++
      s!"[{r.routing.name}; {elapsed} ms{late}]",
    resultLine "#" "Symbol" "Name" "Close" "Chg%" "MktCap(亿)" "PE", ruler 70] ++ rows

/-- A line of the table of fields. -/
def fieldLine (name category measure least greatest operators : String) : String :=
  "  " ++ Text.join " "
    [leftCell 14 name, leftCell 12 category, leftCell 12 measure, rightCell 12 least, rightCell 12 greatest, ""] ++ " " ++
    operators

/-- The table of fields. -/
def fieldTable (fields : List FieldInfo) : List String :=
  let number (x : Option Float) : String := (x.map tableNumber).getD "-"
  let rows := fields.map fun i =>
    let d := i.descriptor
    fieldLine d.name d.category.name (d.measure.getD "-") (number (d.statistics.bind (·.least)))
      (number (d.statistics.bind (·.greatest))) (Text.join " " (d.operators.map Operator.symbol))
  ["", fieldLine "Field" "Category" "Unit" "Min" "Max" "Operators", ruler 90] ++ rows

end EquityScreen
