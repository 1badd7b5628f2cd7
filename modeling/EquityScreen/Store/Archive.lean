import EquityScreen.Store.Tables

/-!
# The store between two runs

Between two runs of the program the store is one document with a list for each table. A number is kept as a text, because a
number of a document is rounded when it is read and cannot be infinite; the text reads back as the same number.
-/

namespace EquityScreen.Archive

open Json

/-- A number. -/
def ofFigure (x : Float) : Json := .text (Layout.exact.write x)

/-- The number that was kept. -/
def figure (v : Json) : Read Float := do
  match Decimal.read (← asText v) with
  | some x => return x
  | none => throw .shape

/-- A record: its symbol, its texts and its numbers. -/
def ofRecord (r : Record) : Json :=
  .list [.text r.symbol, .list (TextColumn.all.map fun c => orNull .text (r.text c)),
    .list (NumberColumn.all.map fun c => orNull ofFigure (r.number c))]

/-- The record that was kept. -/
def record : Json → Read Record
  | .list [symbol, texts, numbers] => do
    let texts := TextColumn.all.zip (← asList (asOptional asText) texts)
    let numbers := NumberColumn.all.zip (← asList (asOptional figure) numbers)
    return ⟨← asText symbol, fun c => (texts.lookup c).join, fun c => (numbers.lookup c).join⟩
  | _ => throw .shape

/-- A bar: its symbol, its day and its numbers. -/
def ofBar (b : DailyBar) : Json :=
  .list [.text b.symbol, .text b.day, ofFigure b.openPrice, ofFigure b.high, ofFigure b.low, ofFigure b.close,
    ofFigure b.volume, orNull ofFigure b.amount]

/-- The bar that was kept. -/
def bar : Json → Read DailyBar
  | .list [symbol, day, openPrice, high, low, close, volume, amount] => do
    return ⟨← asText symbol, ← asText day, ← figure openPrice, ← figure high, ← figure low, ← figure close, ← figure volume,
      ← asOptional figure amount⟩
  | _ => throw .shape

/-- A quote: its symbol and its numbers. -/
def ofQuote (symbol : String) (q : Quote) : Json :=
  .list [.text symbol, orNull ofFigure q.close, orNull ofFigure q.pctChg, orNull ofFigure q.amount,
    orNull ofFigure q.volume]

/-- The quote that was kept, with its symbol. -/
def quote : Json → Read (String × Quote)
  | .list [symbol, close, pctChg, amount, volume] => do
    return (← asText symbol, ⟨← asOptional figure close, ← asOptional figure pctChg, ← asOptional figure amount,
      ← asOptional figure volume⟩)
  | _ => throw .shape

/-- The tables. -/
def tables : List (List String) := [["snapshots"], ["bars"], ["quotes"]]

/-- The document of a store. -/
def ofStore (s : Store) : Json :=
  .object [("snapshots", .list (s.records.map ofRecord)),
    ("bars", .list (s.bars.entries.flatMap fun (_, bars) => bars.entries.map fun (_, b) => ofBar b)),
    ("quotes", .list (s.quotes.entries.map fun (symbol, q) => ofQuote symbol q))]

/-- The store that was kept, open. -/
def store (v : Json) : Read Store := do
  let fs ← Json.fields tables v
  let records ← fs.required 0 (asList record)
  let bars ← fs.required 1 (asList bar)
  let quotes ← fs.required 2 (asList quote)
  let byDay (found : Named (Named DailyBar)) (b : DailyBar) : Named (Named DailyBar) :=
    found.insert b.symbol (((found.get? b.symbol).getD .empty).insert b.day b)
  return { snapshots := .ofList (records.map fun r => (r.symbol, r)), bars := bars.foldl byDay .empty
           quotes := .ofList quotes }

end EquityScreen.Archive
