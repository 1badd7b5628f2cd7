import Mathlib.Algebra.Order.BigOperators.Group.List
import Mathlib.Algebra.Order.Ring.Rat
import Mathlib.Data.List.Infix
import EquityScreen.Indicator.Formula
import EquityScreen.Proofs.Lemmas.Means

/-!
# The windows of the Bollinger bands

Bands describe some values where the middle one is their mean and the others lie `k` of their sample deviations away
(`Bands.Describe`). The two parts are computed apart: the mean is of the latest `n` closes present, however far back they are, and
the deviation of the closes present among the last `n` bars. Over exact numbers these are the same values exactly where the last
`n` bars have no gap, or no close is present before them (`bands_describe_window_iff`). Elsewhere the bands need not describe any
values: their width may be that of fewer closes than their middle (`bands_without_width`).
-/

namespace EquityScreen

open Quantity

/-! ## The deviation of a window -/

section Window

variable {α : Type} [Quantity α] {n i : Nat} {xs : List α}

/-- The bars that the deviation keeps are the last `n`, the newest first. -/
theorem scanState_rollingDeviation (n : Nat) (xs : List α) :
    scanState (rollingDeviationStep n) [] xs = xs.reverse.take n := by
  induction xs using List.reverseRecOn with
  | nil => rw [List.reverse_nil, List.take_nil]; rfl
  | append_singleton xs x ih =>
    rw [scanState_concat, ih, List.reverse_append, List.reverse_singleton, List.singleton_append]
    show (x :: xs.reverse.take n).take n = _
    cases n with
    | zero => rfl
    | succ n => rw [List.take_succ_cons, List.take_succ_cons, List.take_take, Nat.min_eq_left (Nat.le_succ n)]

/-- The deviation at a bar is that of the values present in its window. -/
theorem getElem?_rollingDeviation (n : Nat) (hi : i < xs.length) :
    (rollingDeviation n xs)[i]? = some (sampleDeviation (present (window n i xs))) := by
  have hstate := scanState_rollingDeviation n (xs.take (i + 1))
  rw [List.take_succ_eq_append_getElem hi, scanState_concat] at hstate
  rw [rollingDeviation, getElem?_scan _ _ hi, window, List.rtake_eq_reverse_take_reverse, List.take_succ_eq_append_getElem hi,
    ← hstate]
  rfl

end Window

/-! ## Over exact numbers -/

variable {K : Type} [Field K] [LinearOrder K] [Rooted K]

/-- The sample standard deviation of some numbers. There must be two. -/
def deviation? (xs : List K) : Option K :=
  if xs.length < 2 then none
  else some (Rooted.root ((xs.map fun x => (x - mean xs) * (x - mean xs)).sum / (xs.length - 1 : Nat)))

/-- The bands at a bar describe some values: the middle one is their mean, and the others lie `k` of their deviations above and
below it. Without a value there is no mean, and without two no deviation. -/
structure Bands.Describe (bands : Bands (Exact K)) (k : K) (i : Nat) (values : List K) : Prop where
  mid : bands.mid[i]? = some (if values = [] then .missing else .of (mean values))
  upper : bands.upper[i]? = some (.ofOption ((deviation? values).map fun s => mean values + k * s))
  lower : bands.lower[i]? = some (.ofOption ((deviation? values).map fun s => mean values - k * s))

theorem present_map_ofOption (xs : List (Option K)) : present (xs.map Exact.ofOption) = xs.reduceOption.map .of := by
  induction xs with
  | nil => rfl
  | cons x xs ih =>
    cases x with
    | none => exact ih
    | some x => exact congrArg (Exact.of x :: ·) ih

theorem sum_map_of (xs : List K) : Quantity.sum (xs.map Exact.of) = .of xs.sum := by
  rw [Quantity.sum, Exact.zero_eq, List.foldl_map, List.sum_eq_foldl]
  exact List.foldl_hom Exact.of fun _ _ => rfl

/-- A bar without a close has no bands. -/
theorem bollinger_describes_nil {close : List (Option K)} {i : Nat} (n : Nat) (k : K) (hx : close[i]? = some none) :
    (bollinger n (.of k) (close.map Exact.ofOption)).Describe k i [] := by
  obtain ⟨hi, -⟩ := List.getElem?_eq_some_iff.1 hx
  have hmid := getElem?_rollingMean_none n 1 hx
  have hlength : i < (close.map Exact.ofOption).length := by rwa [List.length_map]
  have hdeviation := getElem?_rollingDeviation n hlength
  exact ⟨hmid, List.getElem?_zipWith_eq_some.2 ⟨_, _, hmid, hdeviation, rfl⟩,
    List.getElem?_zipWith_eq_some.2 ⟨_, _, hmid, hdeviation, rfl⟩⟩

variable [IsStrictOrderedRing K]

/-- The exact sample deviation of numbers is their deviation: the squares below the root are not negative. -/
theorem sampleDeviation_map_of (xs : List K) : sampleDeviation (xs.map Exact.of) = .ofOption (deviation? xs) := by
  rw [sampleDeviation, deviation?, List.length_map]
  by_cases hfew : xs.length < 2
  · rw [if_pos hfew, if_pos hfew]
    rfl
  · have hlength : (xs.length : K) ≠ 0 := Nat.cast_ne_zero.2 (by omega)
    have hdivisor : ((xs.length - 1 : Nat) : K) ≠ 0 := Nat.cast_ne_zero.2 (by omega)
    have hmean : Quantity.sum (xs.map Exact.of) / count xs.length = .of (mean xs) := by
      rw [sum_map_of, Exact.count_eq, Exact.of_div_of hlength, mean]
    have hsquares : (xs.map Exact.of).map (fun x => (x - .of (mean xs)) * (x - .of (mean xs))) =
        (xs.map fun x => (x - mean xs) * (x - mean xs)).map Exact.of := by
      rw [List.map_map, List.map_map]
      exact List.map_congr_left fun x _ => by
        rw [Function.comp_apply, Function.comp_apply, Exact.of_sub_of, Exact.of_mul_of]
    have hnonneg : 0 ≤ (xs.map fun x => (x - mean xs) * (x - mean xs)).sum / ((xs.length - 1 : Nat) : K) :=
      div_nonneg (List.sum_nonneg (List.forall_mem_map.2 fun x _ => mul_self_nonneg _)) (Nat.cast_nonneg _)
    rw [if_neg hfew, if_neg hfew]
    dsimp only
    rw [hmean, hsquares, sum_map_of, Exact.count_eq, Exact.of_div_of hdivisor, Exact.root_of hnonneg]
    rfl

section Bands

variable {n i : Nat} {close : List (Option K)} {x : K}

/-- The three bands of a bar: the mean of the latest closes, and the deviation of the closes in the window. -/
theorem bollinger_at (hn : 0 < n) (k : K) (hx : close[i]? = some (some x)) :
    let bands := bollinger n (.of k) (close.map Exact.ofOption)
    let m := mean (latest n i close)
    let s := deviation? (window n i close).reduceOption
    bands.mid[i]? = some (.of m) ∧ bands.upper[i]? = some (.ofOption (s.map fun s => m + k * s)) ∧
      bands.lower[i]? = some (.ofOption (s.map fun s => m - k * s)) := by
  intro bands m s
  obtain ⟨hi, -⟩ := List.getElem?_eq_some_iff.1 hx
  have hmid : (rollingMean n 1 (close.map Exact.ofOption))[i]? = some (.of m) := getElem?_rollingMean_one hn hx
  have hdeviation : (rollingDeviation n (close.map Exact.ofOption))[i]? = some (.ofOption s) := by
    rw [getElem?_rollingDeviation n (by rwa [List.length_map]), window_map, present_map_ofOption, sampleDeviation_map_of]
  refine ⟨hmid, ?_, ?_⟩
  · refine List.getElem?_zipWith_eq_some.2 ⟨_, _, hmid, hdeviation, ?_⟩
    cases s with
    | none => rfl
    | some s => rfl
  · refine List.getElem?_zipWith_eq_some.2 ⟨_, _, hmid, hdeviation, ?_⟩
    cases s with
    | none => rfl
    | some s => exact Exact.of_sub_of m (k * s)

end Bands

/-- Which values the bands of a bar are of. For every period of a bar or more, every factor and every column of closes, some of
which may be missing: a bar without a close has no bands. Elsewhere the middle band is the mean of the latest `n` closes present,
and the others lie `k` deviations of the closes present in the window of the last `n` bars away. The two take the same closes
exactly where this window has no gap or no close is present before it, and there the bands describe these closes. -/
theorem bands_describe_window_iff {n : Nat} (hn : 1 ≤ n) (k : K) (close : List (Option K)) {i : Nat} (hi : i < close.length) :
    let bands := bollinger n (.of k) (close.map Exact.ofOption)
    let values := (window n i close).reduceOption
    (close[i]? = some none → bands.Describe k i []) ∧
    (∀ x, close[i]? = some (some x) →
      bands.mid[i]? = some (.of (mean (latest n i close))) ∧
      bands.upper[i]? = some (.ofOption ((deviation? values).map fun s => mean (latest n i close) + k * s)) ∧
      bands.lower[i]? = some (.ofOption ((deviation? values).map fun s => mean (latest n i close) - k * s)) ∧
      (latest n i close = values → bands.Describe k i values)) ∧
    (latest n i close = values ↔ none ∉ window n i close ∨ (close.take (i + 1 - n)).reduceOption = []) := by
  intro bands values
  refine ⟨bollinger_describes_nil n k, fun x hx => ?_, latest_eq_window_iff hi⟩
  obtain ⟨hmid, hupper, hlower⟩ := bollinger_at hn k hx
  refine ⟨hmid, hupper, hlower, fun hsame => ?_⟩
  have hne : values ≠ [] := hsame ▸ List.ne_nil_of_length_pos (length_latest_pos hn hx)
  rw [hsame] at hmid hupper hlower
  exact ⟨by rw [if_neg hne]; exact hmid, hupper, hlower⟩

/-- Of the five closes of a column the second is missing. Where the window of three bars has left the gap behind the bands
describe its closes. -/
theorem bands_behind_gap :
    let close : List (Option ℚ) := [some 9, none, some 2, some 4, some 6]
    (bollinger 3 (.of 2) (close.map Exact.ofOption)).Describe 2 4 [2, 4, 6] := by
  intro close
  obtain ⟨-, hbands, hsame⟩ := bands_describe_window_iff (by decide : 1 ≤ 3) (2 : ℚ) close (by decide : 4 < close.length)
  exact (hbands 6 rfl).2.2.2 (hsame.2 (.inl (by decide +kernel)))

/-- Of five closes the third is missing. The middle band over four bars is then the mean of all the four that are present, and the
deviation is that of the last three, which are equal: the bands have no width. No values up to this bar have such bands, since
those with this mean are the four, and they have a deviation. -/
theorem bands_without_width :
    let close : List (Option ℚ) := [some 2, some 6, none, some 6, some 6]
    let bands := bollinger 4 (.of 2) (close.map Exact.ofOption)
    (bands.mid[4]? = some (.of 5) ∧ bands.upper[4]? = some (.of 5) ∧ bands.lower[4]? = some (.of 5)) ∧
      ¬∃ values, values <:+ (close.take 5).reduceOption ∧ bands.Describe 2 4 values := by
  intro close bands
  have hclose : close[4]? = some (some 6) := rfl
  obtain ⟨hmid, hupper, hlower⟩ := bollinger_at (by decide : 0 < 4) 2 hclose
  have hmean : mean (latest 4 4 close) = 5 := by decide +kernel
  have hdeviation : deviation? (window 4 4 close).reduceOption = some 0 := by decide +kernel
  have hwidth : (5 + 2 * 0 : ℚ) = 5 ∧ (5 - 2 * 0 : ℚ) = 5 := by decide +kernel
  rw [hmean] at hmid
  rw [hmean, hdeviation, Option.map_some, Exact.ofOption, hwidth.1] at hupper
  rw [hmean, hdeviation, Option.map_some, Exact.ofOption, hwidth.2] at hlower
  refine ⟨⟨hmid, hupper, hlower⟩, ?_⟩
  rintro ⟨values, hsuffix, hdescribe⟩
  have hmiddle := hdescribe.mid
  have hband := hdescribe.upper
  rw [hmid] at hmiddle
  rw [hupper] at hband
  have htails : values ∈ List.tails [2, 6, 6, 6] := (List.mem_tails _ _).2 hsuffix
  have hcases : values = [2, 6, 6, 6] ∨ values = [6, 6, 6] ∨ values = [6, 6] ∨ values = [6] ∨ values = [] := by
    simpa using htails
  rcases hcases with rfl | rfl | rfl | rfl | rfl
  · exact absurd hband (by decide +kernel)
  · exact absurd hmiddle (by decide +kernel)
  · exact absurd hmiddle (by decide +kernel)
  · exact absurd hmiddle (by decide +kernel)
  · exact absurd hmiddle (by decide +kernel)

end EquityScreen
