import EquityScreen.Condition.Wire
import EquityScreen.Named

/-!
# Rows of a result

A row is a symbol with its fields. A field is set to a value only if the value is not missing, so a row built by `Row.set`
holds no missing value.
-/

namespace EquityScreen

/-- One symbol of a result. -/
structure Row where
  symbol : String
  fields : Named Value

namespace Row

/-- The row without fields. -/
def ofSymbol (symbol : String) : Row := ⟨symbol, .empty⟩

/-- The value of a field. -/
def get? (r : Row) (field : String) : Option Value := r.fields.get? field

/-- The row with the field set, unless the value is missing. -/
def set (r : Row) (field : String) (v : Value) : Row :=
  if v.isMissing then r else { r with fields := r.fields.insert field v }

/-- The document of a row: the symbol and the fields side by side. A field named `symbol` stands for the symbol. -/
def toJson (r : Row) : Json :=
  let fields := r.fields.entries.map fun e => (e.1, e.2.toJson)
  .object (if r.fields.contains "symbol" then fields else ("symbol", .text r.symbol) :: fields)

end Row

end EquityScreen
