import EquityScreen.Json.Record
import EquityScreen.Result.Row

/-!
# Quotes

A quote holds the latest price, change, amount and volume of a symbol, each of which may be absent. The rows of a page are
brought up to date with the quotes of their symbols; where the quotes cannot be had, the rows stay as they are.
-/

namespace EquityScreen

open Json

/-- The latest figures of a symbol. -/
structure Quote where
  close : Option Float
  pctChg : Option Float
  amount : Option Float
  volume : Option Float
  deriving Inhabited

namespace Quote

/-- The fields of a quote. -/
def names : List (List String) := [["close"], ["pct_chg"], ["amount"], ["volume"]]

/-- The quote of a document. -/
def ofJson (v : Json) : Read Quote := do
  let fs ← Json.fields names v
  return ⟨← fs.mayLack 0 asNumber, ← fs.mayLack 1 asNumber, ← fs.mayLack 2 asNumber, ← fs.mayLack 3 asNumber⟩

/-- The figures of a quote by the fields they stand for. -/
def figures (q : Quote) : List (String × Option Float) :=
  [("close", q.close), ("pct_chg", q.pctChg), ("amount", q.amount), ("volume", q.volume)]

/-- The row with the figures that the quote has. -/
def applyTo (q : Quote) (r : Row) : Row :=
  q.figures.foldl (fun r f => match f.2 with | some x => r.set f.1 (.number x) | none => r) r

end Quote

/-- The rows with the quotes of their symbols; without any, where the quotes could not be had, as they are. -/
def enrich {ε : Type} (found : Except ε (Named Quote)) (rows : List Row) : List Row :=
  match found with
  | .ok quotes => rows.map fun r => match quotes.get? r.symbol with | some q => q.applyTo r | none => r
  | .error _ => rows

end EquityScreen
