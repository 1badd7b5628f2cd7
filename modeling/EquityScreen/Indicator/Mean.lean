import EquityScreen.Indicator.Ring
import EquityScreen.Indicator.Scan

/-!
# Means over bars

* `rollingMean`: the mean of the latest values that are present.
* `rollingDeviation`: the sample standard deviation of the values present among the latest bars.
* `exponentialMean`: each value counts `2 / (n + 1)` of the mean (`exponentialShare`), the first one all of it.
* `decayingMean`: each value counts the given share of the mean, and a mean that is missing starts again.
* `weightedMean`: every value counts less with each bar after it, and the weights are divided out.
-/

namespace EquityScreen

open Quantity

variable {α : Type} [Quantity α]

/-- One bar of the rolling mean: a missing value is not fed and has no mean. -/
def rollingMeanStep (least : Nat) (m : RunningMean α) (x : α) : RunningMean α × α :=
  if isMissing x then (m, missing)
  else
    let m := m.feed x
    (m, if max least 1 ≤ m.weight then m.value else missing)

/-- The mean of the latest `n` values present, given from the bar on at which there are `least` of them. -/
def rollingMean (n least : Nat) (xs : List α) : List α :=
  scan (rollingMeanStep least) (.new n) xs

/-- The sample standard deviation of some values; there must be two. -/
def sampleDeviation (xs : List α) : α :=
  if xs.length < 2 then missing
  else
    let mean := Quantity.sum xs / count xs.length
    root (Quantity.sum (xs.map fun x => (x - mean) * (x - mean)) / count (xs.length - 1))

/-- The latest `n` bars of some bars, the newest first, with one more bar. -/
def slide (n : Nat) (recent : List α) (x : α) : List α :=
  (x :: recent).take n

/-- One bar of the rolling deviation, the latest bars kept newest first. -/
def rollingDeviationStep (n : Nat) (recent : List α) (x : α) : List α × α :=
  let recent := slide n recent x
  (recent, sampleDeviation (present recent.reverse))

/-- The sample standard deviation of the values present among the latest `n` bars. -/
def rollingDeviation (n : Nat) (xs : List α) : List α :=
  scan (rollingDeviationStep n) [] xs

/-- One bar of the exponential mean, which does not exist before the first value. -/
def exponentialMeanStep (share : α) (mean : Option α) (x : α) : Option α × α :=
  let mean :=
    if isMissing x then mean
    else
      match mean with
      | none => some x
      | some m => some (share * x + (one - share) * m)
  (mean, mean.getD missing)

/-- The share of the exponential mean of `n` bars. One more than `n` is counted with 64 bits, so that the longest period has
nothing to divide by. -/
def exponentialShare (n : Nat) : α := count 2 / count ((n + 1) % Nat.pow 2 64)

/-- The exponential mean of `n` bars. A missing value leaves it as it was. -/
def exponentialMean (n : Nat) (xs : List α) : List α :=
  scan (exponentialMeanStep (exponentialShare n)) none xs

/-- One bar of the decaying mean. -/
def decayingMeanStep (share : α) (mean x : α) : α × α :=
  let mean := if isMissing x then mean else if isMissing mean then x else (one - share) * mean + share * x
  (mean, mean)

/-- The decaying mean: the first value, and then the given share of each value and the rest of the mean before. -/
def decayingMean (share : α) (xs : List α) : List α :=
  scan (decayingMeanStep share) missing xs

/-- One bar of the weighted mean: both the sum of weighted values and the sum of weights decay, and a value that is present
enters with weight one. -/
def weightedMeanStep (share : α) (sums : α × α) (x : α) : (α × α) × α :=
  let decay := one - share
  let values := sums.1 * decay
  let weights := sums.2 * decay
  let (values, weights) := if isMissing x then (values, weights) else (values + x, weights + one)
  ((values, weights), if below zero weights then values / weights else missing)

/-- The mean with weights that fall by the share with each bar. -/
def weightedMean (share : α) (xs : List α) : List α :=
  scan (weightedMeanStep share) (zero, zero) xs

end EquityScreen
