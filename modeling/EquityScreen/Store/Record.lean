import EquityScreen.Evaluation.Condition
import EquityScreen.Result.Row
import EquityScreen.Store.Column

/-!
# Records of the snapshot table

A record is one row of the table: a symbol, and for every other column a value or nothing. As a snapshot it is the fields
that have a value, the symbol among them; as a row of a result the symbol stands apart.
-/

namespace EquityScreen

open Json

/-- A row of the snapshot table. -/
structure Record where
  symbol : String
  text : TextColumn → Option String
  number : NumberColumn → Option Float

instance : Inhabited Record := ⟨"", fun _ => none, fun _ => none⟩

namespace Record

/-- The value of a column. -/
def cell? (r : Record) : Column → Option Value
  | .symbol => some (.text r.symbol)
  | .text c => (r.text c).map .text
  | .number c => (r.number c).map .number

/-- The fields of a record's document. -/
def names : List (List String) := Column.all.map fun c => [c.label]

/-- The value a document gives for a column. -/
def given {α : Type} (fs : Fields) (read : Json → Read α) (c : Column) : Read (Option α) :=
  fs.orElse (Column.all.idxOf c) none (asOptional read)

/-- The record of a document; a column that is missing or null has no value. -/
def ofJson (v : Json) : Read Record := do
  let fs ← Json.fields names v
  let symbol ← fs.required 0 asText
  let texts ← TextColumn.all.mapM fun c => do return (c, ← given fs asText (.text c))
  let numbers ← NumberColumn.all.mapM fun c => do return (c, ← given fs asNumber (.number c))
  return ⟨symbol, fun c => (texts.lookup c).join, fun c => (numbers.lookup c).join⟩

/-- The document of a record, with every column. -/
def toJson (r : Record) : Json :=
  .object (Column.all.map fun c => (c.label, orNull Value.toJson (r.cell? c)))

/-- A number as the table keeps it: no mark of a missing number, and one zero. -/
def storedNumber (x : Float) : Option Float :=
  if x.isNaN then none else some (x + 0.0)

/-- The record as the table keeps it. -/
def stored (r : Record) : Record :=
  { r with number := fun c => (r.number c).bind storedNumber }

/-- The fields of the record that have a value. -/
def snapshot (r : Record) : Snapshot :=
  Named.ofList (Column.all.filterMap fun c => ((r.cell? c).filter (!·.isMissing)).map (c.label, ·))

/-- The record as a row of a result. -/
def row (r : Record) : Row :=
  ⟨r.symbol, r.snapshot.erase "symbol"⟩

end Record

end EquityScreen
