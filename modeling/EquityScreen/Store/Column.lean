/-!
# Columns of the snapshot table

The table has one row per symbol. A column holds texts or numbers. Filters and sorts may name these columns and no others;
`Column.ofName?` is the list they are checked against.
-/

namespace EquityScreen

/-- A column of texts, apart from the symbol. -/
inductive TextColumn where
  | name | industry | area | market | board | exchange | tradeDate
  deriving DecidableEq, Repr

/-- A column of numbers. -/
inductive NumberColumn where
  | totalMv | circMv | pe | pb | peTtm | pbMrq | roe | turnoverRate | volumeRatio | openPrice | high | low | close | pctChg
  | amount | volume
  deriving DecidableEq, Repr

/-- A column of the table. -/
inductive Column where
  | symbol
  | text (c : TextColumn)
  | number (c : NumberColumn)
  deriving DecidableEq, Repr

namespace TextColumn

/-- Every column of texts. -/
def all : List TextColumn := [name, industry, area, market, board, exchange, tradeDate]

/-- The name of the column. -/
def label : TextColumn → String
  | name => "name"
  | industry => "industry"
  | area => "area"
  | market => "market"
  | board => "board"
  | exchange => "exchange"
  | tradeDate => "trade_date"

end TextColumn

namespace NumberColumn

/-- Every column of numbers. -/
def all : List NumberColumn :=
  [totalMv, circMv, pe, pb, peTtm, pbMrq, roe, turnoverRate, volumeRatio, openPrice, high, low, close, pctChg, amount,
    volume]

/-- The name of the column. -/
def label : NumberColumn → String
  | totalMv => "total_mv"
  | circMv => "circ_mv"
  | pe => "pe"
  | pb => "pb"
  | peTtm => "pe_ttm"
  | pbMrq => "pb_mrq"
  | roe => "roe"
  | turnoverRate => "turnover_rate"
  | volumeRatio => "volume_ratio"
  | openPrice => "open"
  | high => "high"
  | low => "low"
  | close => "close"
  | pctChg => "pct_chg"
  | amount => "amount"
  | volume => "volume"

end NumberColumn

namespace Column

/-- Every column, in the order a record lists them: the trade date is the last. -/
def all : List Column :=
  .symbol :: ((TextColumn.all.filter (· ≠ .tradeDate)).map .text ++ NumberColumn.all.map .number ++ [.text .tradeDate])

/-- The name of the column. -/
def label : Column → String
  | symbol => "symbol"
  | text c => c.label
  | number c => c.label

/-- The column of a name. -/
def ofName? (name : String) : Option Column :=
  all.find? (·.label == name)

/-- The column holds numbers. -/
def isNumeric : Column → Bool
  | number _ => true
  | _ => false

end Column

end EquityScreen
