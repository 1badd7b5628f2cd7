import Mathlib.Algebra.Order.Ring.Rat
import EquityScreen.Indicator.Formula
import EquityScreen.Proofs.Lemmas.Means

/-!
# Rolling means are means of the latest values

Over exact numbers the rolling mean of a column has no value at a bar that lacks one, and elsewhere the mean of the last `n`
values present, or of all of them while there are fewer, if they are as many as are asked for (`rolling_mean_of_latest`). So the
moving average has a value at every bar with a close, and the average range at every bar from the `n`-th on, if no bar lacks a
price. The range of a bar is then written without missing values (`rangeAfter`).
-/

namespace EquityScreen

open Quantity

variable {K : Type}

/-! ## The range of a bar -/

/-- A bar that lacks no price, over exact numbers. -/
def Candle.of (c : Candle K) : Candle (Exact K) := ⟨.of c.high, .of c.low, .of c.close⟩

variable [Field K] [LinearOrder K]

/-- The range of a bar after a close, if there is a bar before: the largest of the three spans between its high, its low and that
close. -/
def rangeAfter (before : Option K) (c : Candle K) : K :=
  match before with
  | none => |c.high - c.low|
  | some b => max (max |c.high - c.low| |c.high - b|) |c.low - b|

/-- The ranges of bars that lack no price. -/
def ranges (bars : List (Candle K)) : List K :=
  List.zipWith rangeAfter (none :: bars.map fun c => some c.close) bars

theorem length_ranges (bars : List (Candle K)) : (ranges bars).length = bars.length := by
  rw [ranges, List.length_zipWith, List.length_cons, List.length_map]
  omega

variable [Rooted K]

/-- The greatest of some numbers is found by going through them. -/
theorem greatestPresent_cons (x : K) (xs : List K) :
    greatestPresent (.of x :: xs.map Exact.of) = .of (xs.foldl max x) := by
  have hpresent : present (.of x :: xs.map Exact.of) = .of x :: xs.map Exact.of := by
    simp [present, List.filter_map, Function.comp_def]
  rw [greatestPresent, hpresent, List.foldl_cons, List.foldl_map]
  refine List.foldl_hom Exact.of fun a b => ?_
  rw [max_def_lt]
  by_cases h : a < b <;> simp [h]

/-- One bar that lacks no price has its range. -/
theorem trueRangeStep_of (before : Option K) (c : Candle K) :
    (trueRangeStep (before.map Exact.of) c.of).2 = .of (rangeAfter before c) := by
  have hspan : ∀ x y : K, size (.of x - .of y : Exact K) = .of |x - y| := fun x y => congrArg size (Exact.of_sub_of x y)
  cases before with
  | none => exact hspan _ _
  | some b =>
    simp only [trueRangeStep, Candle.of, Option.map_some, hspan]
    exact greatestPresent_cons |c.high - c.low| [|c.high - b|, |c.low - b|]

/-- The pass over bars that lack no price gives their ranges. -/
theorem trueRange_map_of (bars : List (Candle K)) : trueRange (bars.map .of) = (ranges bars).map .of := by
  have hbefore : (none :: (bars.map Candle.of).map fun c => some c.close) =
      (none :: bars.map fun c => some c.close).map (Option.map Exact.of) := by
    rw [List.map_cons, List.map_map, List.map_map]
    rfl
  rw [trueRange, scan_eq_zipWith Candle.close (fun _ _ => rfl), hbefore, List.zipWith_map, ranges, List.map_zipWith]
  simp only [trueRangeStep_of]

/-! ## Means of the latest values -/

variable [IsStrictOrderedRing K]

/-- What a rolling mean is of. For every period of a bar or more and every column, which may lack values: a bar without a value
has none, and any other the mean of the last `n` values present up to it, or of all of them while there are fewer, if this is at
least one value and as many as are asked for. So the moving average exists from the first close on wherever there is one; and over
bars that lack no price the average range is missing at the first `n - 1` bars, and then the mean of the last `n` ranges. -/
theorem rolling_mean_of_latest {n : Nat} (hn : 1 ≤ n) :
    (∀ (least : Nat) (xs : List (Option K)), (rollingMean n least (xs.map Exact.ofOption)).length = xs.length ∧ ∀ i,
      (xs[i]? = some none → (rollingMean n least (xs.map Exact.ofOption))[i]? = some .missing) ∧
      ∀ x, xs[i]? = some (some x) →
        (latest n i xs).length = min (xs.take (i + 1)).reduceOption.length n ∧
        (rollingMean n least (xs.map Exact.ofOption))[i]? =
          some (if max least 1 ≤ (latest n i xs).length then .of (mean (latest n i xs)) else .missing)) ∧
    (∀ (close : List (Option K)) (i : Nat) (x : K), close[i]? = some (some x) →
      (movingAverage n (close.map Exact.ofOption))[i]? = some (.of (mean (latest n i close)))) ∧
    ∀ (bars : List (Candle K)) (i : Nat), i < bars.length →
      (averageTrueRange n (bars.map .of))[i]? = some (if i + 1 < n then .missing else .of (mean (window n i (ranges bars)))) := by
  refine ⟨fun least xs => ⟨?_, fun i => ⟨getElem?_rollingMean_none n least, fun x hx => ⟨?_, ?_⟩⟩⟩, ?_, ?_⟩
  · rw [rollingMean, length_scan, List.length_map]
  · exact length_latest xs
  · exact getElem?_rollingMean hn least hx
  · intro close i x hx
    exact getElem?_rollingMean_one hn hx
  · intro bars i hi
    have hrange : i < (ranges bars).length := by rwa [length_ranges]
    have hcolumn : (ranges bars).map Exact.of = ((ranges bars).map some).map Exact.ofOption := by
      rw [List.map_map]
      rfl
    have hbar : ((ranges bars).map some)[i]? = some (some (ranges bars)[i]) := by
      rw [List.getElem?_map, List.getElem?_eq_getElem hrange, Option.map_some]
    rw [averageTrueRange, trueRange_map_of, hcolumn, getElem?_rollingMean hn n hbar, latest_map_some, length_window hrange]
    by_cases hfew : i + 1 < n
    · rw [if_pos hfew, if_neg (by omega)]
    · rw [if_neg hfew, if_pos (by omega)]

/-- Of four values the second is missing. The mean of two is there that of the values beside the gap, and at the last bar that of
the last two. Of three bars the first has no average range of two yet, and the last one has that of the last two ranges. -/
theorem means_of_two :
    let xs : List (Option ℚ) := [some 1, none, some 3, some 8]
    let bars : List (Candle ℚ) := [⟨5, 3, 4⟩, ⟨7, 6, 6⟩, ⟨6, 2, 3⟩]
    (rollingMean 2 1 (xs.map Exact.ofOption))[2]? = some (.of 2) ∧
      (rollingMean 2 1 (xs.map Exact.ofOption))[3]? = some (.of (11 / 2)) ∧
      (averageTrueRange 2 (bars.map .of))[0]? = some .missing ∧
      (averageTrueRange 2 (bars.map .of))[2]? = some (.of (7 / 2)) := by
  intro xs bars
  obtain ⟨hmean, -, hrange⟩ := rolling_mean_of_latest (K := ℚ) (by decide : 1 ≤ 2)
  have hgap : mean (latest 2 2 xs) = 2 := by decide +kernel
  have hlast : mean (latest 2 3 xs) = 11 / 2 := by decide +kernel
  have hranges : mean (window 2 2 (ranges bars)) = 7 / 2 := by decide +kernel
  refine ⟨?_, ?_, ?_, ?_⟩
  · rw [(((hmean 1 xs).2 2).2 3 rfl).2, if_pos (by decide), hgap]
  · rw [(((hmean 1 xs).2 3).2 8 rfl).2, if_pos (by decide), hlast]
  · rw [hrange bars 0 (by decide), if_pos (by decide)]
  · rw [hrange bars 2 (by decide), if_neg (by decide), hranges]

end EquityScreen
