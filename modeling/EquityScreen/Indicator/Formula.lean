import EquityScreen.Indicator.Mean

/-!
# The indicators

The indicators over one column of closes, or over candles, which hold the high, the low and the close of a bar. A bar at
which an indicator has no value holds the missing value. Periods are at least one; `Indicator.Function` refuses others.
-/

namespace EquityScreen

open Quantity

variable {α : Type} [Quantity α]

/-- What an indicator reads of a bar. -/
structure Candle (α : Type) where
  high : α
  low : α
  close : α

/-- The candles of three columns. There are as many as closes, and `none` if a high or a low is lacking. -/
def candles? (high low close : List α) : Option (List (Candle α)) :=
  if close.length ≤ high.length && close.length ≤ low.length then
    some ((high.zip (low.zip close)).map fun (h, l, c) => ⟨h, l, c⟩)
  else none

/-- The change from each bar to the next in percent. The first bar has none, nor a bar whose change is not finite. -/
def percentChangeStep (before : Option α) (x : α) : Option α × α :=
  (some x,
    match before with
    | none => missing
    | some b =>
      let change := (x / b - one) * hundred
      if isFinite change then change else missing)

/-- The change from each bar to the next in percent. -/
def percentChange (xs : List α) : List α :=
  scan percentChangeStep none xs

/-- The moving average: a mean exists from the first value on. -/
def movingAverage (n : Nat) (close : List α) : List α :=
  rollingMean n 1 close

/-- Convergence and divergence of a fast and a slow exponential mean. -/
structure Macd (α : Type) where
  dif : List α
  dea : List α
  histogram : List α

/-- The difference of the two means, its own mean, and the difference of these. -/
def macd (fast slow signal : Nat) (close : List α) : Macd α :=
  let dif := List.zipWith (· - ·) (exponentialMean fast close) (exponentialMean slow close)
  let dea := exponentialMean signal dif
  ⟨dif, dea, List.zipWith (· - ·) dif dea⟩

/-- The smoothing of gains and losses. -/
inductive RsiMethod where
  /-- The decaying mean with the share `1 / n`. -/
  | ema
  /-- The rolling mean. -/
  | sma
  /-- The weighted mean with the share `1 / n`. -/
  | china
  deriving DecidableEq, Repr

/-- The gain and the loss at each bar; the first bar and a bar beside a missing close have neither. -/
def gainLossStep (before : Option α) (x : α) : Option α × (α × α) :=
  let delta := match before with
    | none => missing
    | some b => x - b
  (some x, (if below zero delta then delta else zero, if below delta zero then -delta else zero))

/-- The gains and the losses of closes. -/
def gainsLosses (close : List α) : List (α × α) :=
  scan gainLossStep none close

/-- Gains or losses smoothed. -/
def RsiMethod.smooth (m : RsiMethod) (n : Nat) (xs : List α) : List α :=
  match m with
  | ema => decayingMean (one / count n) xs
  | sma => rollingMean n 1 xs
  | china => weightedMean (one / count n) xs

/-- The strength of a mean gain against a mean loss. Without a loss there is none. -/
def strength (gain loss : α) : α :=
  if same loss zero || isMissing loss then missing else hundred - hundred / (one + gain / loss)

/-- The relative strength index. -/
def rsi (n : Nat) (method : RsiMethod) (close : List α) : List α :=
  let changes := gainsLosses close
  List.zipWith strength (method.smooth n (changes.map (·.1))) (method.smooth n (changes.map (·.2)))

/-- A mean and the bands above and below it. -/
structure Bands (α : Type) where
  mid : List α
  upper : List α
  lower : List α

/-- The moving average and the bands `k` deviations away. -/
def bollinger (n : Nat) (k : α) (close : List α) : Bands α :=
  let mid := rollingMean n 1 close
  let deviation := rollingDeviation n close
  ⟨mid, List.zipWith (fun m s => m + k * s) mid deviation,
    List.zipWith (fun m s => m - k * s) mid deviation⟩

/-- The greatest of the values present; the missing value if none is. -/
def greatestPresent (xs : List α) : α :=
  (present xs).foldl (fun best x => if isMissing best || below best x then x else best) missing

/-- The range of a bar: from low to high, and on to the close before where it lies outside. -/
def trueRangeStep (before : Option α) (c : Candle α) : Option α × α :=
  let span := size (c.high - c.low)
  (some c.close,
    match before with
    | none => span
    | some b => greatestPresent [span, size (c.high - b), size (c.low - b)])

/-- The range of each bar. -/
def trueRange (bars : List (Candle α)) : List α :=
  scan trueRangeStep none bars

/-- The mean range of the latest `n` bars, from the bar on at which there are as many. -/
def averageTrueRange (n : Nat) (bars : List (Candle α)) : List α :=
  rollingMean n n (trueRange bars)

/-- The stochastic lines. -/
structure Kdj (α : Type) where
  k : α
  d : α
  j : α

/-- What the stochastic lines carry from bar to bar: the latest highs and lows, how many bars in a row have both, and the
latest values of the lines K and D. -/
structure KdjState (α : Type) where
  highest : RunningBest α
  lowest : RunningBest α
  unbroken : Nat
  k : α
  d : α

/-- Before the first bar. The lines start in the middle. -/
def KdjState.new (n : Nat) : KdjState α := ⟨.greatest n, .least n, 0, count 50, count 50⟩

/-- Where the close lies between the lowest low and the highest high, in percent. -/
def stochastic (close highest lowest : α) : α :=
  (close - lowest) / (highest - lowest) * hundred

/-- One bar. A bar without a full window of highs and lows, or whose position is not finite, has no value and leaves the
lines as they were. -/
def kdjStep (n : Nat) (m1 m2 : α) (s : KdjState α) (c : Candle α) : KdjState α × Kdj α :=
  let highest := s.highest.feed (fun x y => below y x) c.high
  let lowest := s.lowest.feed below c.low
  let unbroken := if isMissing c.high || isMissing c.low then 0 else s.unbroken + 1
  let position := if n ≤ unbroken then stochastic c.close highest.value lowest.value else missing
  if isFinite position then
    let k := (one - one / m1) * s.k + position / m1
    let d := (one - one / m2) * s.d + k / m2
    (⟨highest, lowest, unbroken, k, d⟩, ⟨k, d, count 3 * k - count 2 * d⟩)
  else (⟨highest, lowest, unbroken, s.k, s.d⟩, ⟨missing, missing, missing⟩)

/-- The stochastic lines of the latest `n` bars. -/
def kdj (n : Nat) (m1 m2 : α) (bars : List (Candle α)) : List (Kdj α) :=
  scan (kdjStep n m1 m2) (.new n) bars

end EquityScreen
