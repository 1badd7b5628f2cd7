import EquityScreen.Indicator.Spec

/-!
# The indicators as functions

An indicator may be asked for over any values with any period. A period of zero is refused in the name of the indicator, and then
nothing is computed. The relative strength index needs a period only for the rolling mean; its other smoothings take zero like any
other.
-/

namespace EquityScreen

variable {α β : Type} [Quantity α]

/-- What is computed with a period, which has to be above zero. -/
def IndicatorName.withPeriod (name : IndicatorName) (n : Nat) (values : β) : Except IndicatorError β :=
  if n = 0 then .error (.invalidParameter name "n" (toString n)) else .ok values

/-- The moving average of any period. -/
def movingAverageOf (n : Nat) (close : List α) : Except IndicatorError (List α) :=
  IndicatorName.ma.withPeriod n (movingAverage n close)

/-- The exponential mean of any period. -/
def exponentialMeanOf (n : Nat) (xs : List α) : Except IndicatorError (List α) :=
  IndicatorName.ema.withPeriod n (exponentialMean n xs)

/-- Convergence and divergence with any periods. A refusal is that of one of the means. -/
def macdOf (fast slow signal : Nat) (close : List α) : Except IndicatorError (Macd α) := do
  let fastMean ← exponentialMeanOf fast close
  let slowMean ← exponentialMeanOf slow close
  let dif := List.zipWith (· - ·) fastMean slowMean
  let dea ← exponentialMeanOf signal dif
  return ⟨dif, dea, List.zipWith (· - ·) dif dea⟩

/-- The relative strength index of any period. -/
def rsiOf (n : Nat) (method : RsiMethod) (close : List α) : Except IndicatorError (List α) :=
  match method with
  | .sma => IndicatorName.rsi.withPeriod n (rsi n .sma close)
  | .ema | .china => return rsi n method close

/-- The bands of any period. -/
def bollingerOf (n : Nat) (k : α) (close : List α) : Except IndicatorError (Bands α) :=
  IndicatorName.boll.withPeriod n (bollinger n k close)

/-- The mean range of any period. -/
def averageTrueRangeOf (n : Nat) (bars : List (Candle α)) : Except IndicatorError (List α) :=
  IndicatorName.atr.withPeriod n (averageTrueRange n bars)

/-- The stochastic lines of any period. -/
def kdjOf (n : Nat) (m1 m2 : α) (bars : List (Candle α)) : Except IndicatorError (List (Kdj α)) :=
  IndicatorName.kdj.withPeriod n (kdj n m1 m2 bars)

end EquityScreen
