import EquityScreen.Indicator.Function
import EquityScreen.Series.Basic

/-!
# Computing indicators over a series

`compute` adds the columns of every specification to a series. All specifications are checked before any is computed, so the
result is the enriched series or the error of the first specification that cannot be computed, its parameters before its
columns. Every indicator reads the series as it was given, never a column added by another.

The rings of an indicator are as long as its period, and a period may be longer than any memory: `Series.hasRoomFor` says
whether the rings of some specifications can be laid out.
-/

namespace EquityScreen

namespace Series

/-- The numbers of a column, none when the series has no such column. -/
def numbers (s : Series) (name : String) : List Float := (s.column? name).getD []

/-- The candles of a series. -/
def candles (s : Series) : List (Candle Float) :=
  (candles? (s.numbers "high") (s.numbers "low") (s.numbers "close")).getD []

end Series

/-- The columns of an indicator over a series, unless a period is zero. -/
def Indicator.columnsOf (s : Series) : Indicator → Except IndicatorError (List (String × List Float))
  | .ma n => return [(Spec.columnName "ma" n, ← movingAverageOf n (s.numbers "close"))]
  | .ema n => return [(Spec.columnName "ema" n, ← exponentialMeanOf n (s.numbers "close"))]
  | .macd fast slow signal => do
    let m ← macdOf fast slow signal (s.numbers "close")
    return [("dif", m.dif), ("dea", m.dea), ("macd_hist", m.histogram)]
  | .rsi n method => return [(Spec.columnName "rsi" n, ← rsiOf n method (s.numbers "close"))]
  | .boll n k => do
    let b ← bollingerOf n k (s.numbers "close")
    return [("boll_mid", b.mid), ("boll_upper", b.upper), ("boll_lower", b.lower)]
  | .atr n => return [(Spec.columnName "atr" n, ← averageTrueRangeOf n s.candles)]
  | .kdj n m1 m2 => do
    let lines ← kdjOf n m1 m2 s.candles
    return [("kdj_k", lines.map (·.k)), ("kdj_d", lines.map (·.d)), ("kdj_j", lines.map (·.j))]

/-- How many slots each ring of an indicator has; an indicator without rings has none. -/
def Indicator.slots : Indicator → Nat
  | .ma n | .boll n _ | .atr n | .kdj n _ _ | .rsi n .sma => n
  | .ema _ | .macd .. | .rsi .. => 0

/-- The specification as an indicator over the series, if its parameters are in range and the series has its columns. -/
def Spec.over (spec : Spec) (s : Series) : Except IndicatorError Indicator := do
  let indicator ← spec.checked
  let missing := spec.required.filter (!s.columns.contains ·)
  if missing.isEmpty then return indicator
  else throw (.missingColumns spec.name missing s.columns.names)

namespace Series

/-- The series with several columns. -/
def insertAll (s : Series) (columns : List (String × List Float)) : Series :=
  columns.foldl (fun s c => s.insert c.1 c.2) s

/-- The series with the columns of every specification. -/
def compute (s : Series) (specs : List Spec) : Except IndicatorError Series := do
  let indicators ← (Spec.dedup specs).mapM (·.over s)
  let columns ← indicators.mapM (·.columnsOf s)
  return s.insertAll columns.flatten

/-- The specifications can be computed over the series, as far as they are without fault, in the memory there can be. -/
def hasRoomFor (s : Series) (specs : List Spec) : Bool :=
  match (Spec.dedup specs).mapM (·.over s) with
  | .ok indicators => indicators.all (·.slots ≤ Ring.mostSlots)
  | .error _ => true

end Series

end EquityScreen
