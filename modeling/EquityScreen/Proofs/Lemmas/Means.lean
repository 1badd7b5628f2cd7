import Mathlib.Algebra.BigOperators.Group.List.Basic
import EquityScreen.Indicator.Mean
import EquityScreen.Proofs.Lemmas.Exact
import EquityScreen.Proofs.Lemmas.Rings
import EquityScreen.Proofs.Lemmas.Windows

/-!
# Running means over exact numbers

A running mean keeps the sum of the values in its ring by taking the oldest one out when the next one comes in. Over exact
numbers this sum is that of the last `n` values fed (`RunningMean.Averages`), so the value of a rolling mean at a bar is the mean
of the latest values that are present (`getElem?_rollingMean`).
-/

namespace EquityScreen

open Quantity

variable {K : Type} [Field K]

/-- The mean of some numbers. -/
def mean (xs : List K) : K := xs.sum / xs.length

/-! ## One value more -/

/-- The running mean has been fed these values: its ring has the last `n` of them, and its sum is theirs. -/
structure RunningMean.Averages (n : Nat) (xs : List K) (m : RunningMean (Exact K)) : Prop where
  capacity_eq : m.ring.capacity = n
  filling_eq : m.ring.filling = .of 0
  holds : m.ring.Holds ((xs.rtake n).map .of)
  sum_eq : m.sum = .of (xs.rtake n).sum
  fed_eq : m.fed = xs.length

namespace RunningMean

variable {n : Nat} {xs : List K} {m : RunningMean (Exact K)}

theorem Averages.weight_eq (h : m.Averages n xs) : m.weight = (xs.rtake n).length := by
  rw [length_rtake, ← h.fed_eq, ← h.capacity_eq, weight]

variable [LinearOrder K] [Rooted K]

/-- Before the first value. -/
theorem averages_new (hn : 0 < n) : Averages n ([] : List K) (.new n) where
  capacity_eq := rfl
  filling_eq := Exact.zero_eq
  holds := by
    rw [List.rtake_nil, List.map_nil]
    exact Ring.holds_new hn _
  sum_eq := by
    rw [List.rtake_nil, List.sum_nil]
    exact Exact.zero_eq
  fed_eq := rfl

namespace Averages

/-- The sum of the last `n` values goes on: the oldest value leaves it, or the zero of a slot that is not in use. -/
theorem sum_feed (h : m.Averages n xs) (x : K) :
    m.sum - m.ring.oldest + .of x = .of ((xs ++ [x]).rtake n).sum := by
  have hend : (xs.rtake n ++ [x]).rtake n = (xs ++ [x]).rtake n := by simpa using rtake_map_concat (n := n) id xs x
  rw [h.sum_eq, ← hend]
  rcases h.holds.oldest_cases with ⟨hroom, holdest⟩ | ⟨hfull, rest, holdest⟩
  · rw [List.length_map, h.capacity_eq] at hroom
    have hshort : (xs.rtake n ++ [x]).length ≤ n := by
      rw [List.length_append, List.length_singleton]
      omega
    rw [holdest, h.filling_eq, Exact.of_sub_of, Exact.of_add_of, sub_zero, rtake_of_length_le hshort, List.sum_append,
      List.sum_singleton]
  · rw [List.length_map, h.capacity_eq] at hfull
    obtain ⟨first, values, hvalues, hfirst, -⟩ := List.map_eq_cons_iff.1 holdest
    rw [hvalues, List.length_cons] at hfull
    rw [← hfirst, hvalues, Exact.of_sub_of, Exact.of_add_of, List.sum_cons, add_sub_cancel_left, ← hfull, List.cons_append,
      ← List.cons_append, List.rtake, List.length_append, List.length_cons, List.length_singleton, Nat.add_sub_cancel_left,
      List.cons_append, List.drop_one, List.tail_cons, List.sum_append, List.sum_singleton]

theorem feed (h : m.Averages n xs) (x : K) : (m.feed (.of x)).Averages n (xs ++ [x]) where
  capacity_eq := h.capacity_eq
  filling_eq := h.filling_eq
  holds := by
    have hadvance := h.holds.advance_write (.of x)
    rw [h.capacity_eq, rtake_map_concat] at hadvance
    exact hadvance
  sum_eq := h.sum_feed x
  fed_eq := by
    rw [List.length_append, List.length_singleton, ← h.fed_eq]
    rfl

variable [IsStrictOrderedRing K]

theorem value_eq (h : m.Averages n xs) (hne : xs.rtake n ≠ []) : m.value = .of (mean (xs.rtake n)) := by
  have hlength : ((xs.rtake n).length : K) ≠ 0 := Nat.cast_ne_zero.2 (List.length_pos_of_ne_nil hne).ne'
  rw [value, h.sum_eq, h.weight_eq, Exact.count_eq, Exact.of_div_of hlength, mean]

end Averages

end RunningMean

variable [LinearOrder K] [Rooted K]

/-! ## Values that fade -/

theorem decayingMeanStep_first (share x : K) : decayingMeanStep (Exact.of share) missing (.of x) = (.of x, .of x) := rfl

/-- What there was fades by the share, and the value comes in with it. -/
theorem decayingMeanStep_of (share y x : K) : decayingMeanStep (Exact.of share) (.of y) (.of x) =
    (.of ((1 - share) * y + share * x), .of ((1 - share) * y + share * x)) := by
  rw [decayingMeanStep, Exact.one_eq, Exact.of_sub_of, Exact.of_mul_of, Exact.of_mul_of, Exact.of_add_of]
  rfl

/-- What there was fades by the share, and the value comes in with weight one. -/
theorem weightedMeanStep_of (share y weights x : K) : weightedMeanStep (Exact.of share) (.of y, .of weights) (.of x) =
    ((.of ((1 - share) * y + x), .of ((1 - share) * weights + 1)),
      if 0 < (1 - share) * weights + 1 then .of ((1 - share) * y + x) / .of ((1 - share) * weights + 1) else missing) := by
  rw [weightedMeanStep, Exact.one_eq, Exact.zero_eq, Exact.of_sub_of, Exact.of_mul_of, Exact.of_mul_of, mul_comm y,
    mul_comm weights]
  simp

/-! ## The rolling mean -/

variable {n : Nat} {xs : List (Option K)} {i : Nat} {x : K}

/-- A number is fed, and the mean is given once it is of enough values. -/
theorem rollingMeanStep_of (least : Nat) (m : RunningMean (Exact K)) (x : K) : rollingMeanStep least m (.of x) =
    (m.feed (.of x), if max least 1 ≤ (m.feed (.of x)).weight then (m.feed (.of x)).value else missing) := rfl

/-- After some bars the running mean has been fed the values present. -/
theorem averages_scanState (hn : 0 < n) (least : Nat) (xs : List (Option K)) :
    (scanState (rollingMeanStep least) (.new n) (xs.map .ofOption)).Averages n xs.reduceOption := by
  induction xs using List.reverseRecOn with
  | nil => exact RunningMean.averages_new hn
  | append_singleton xs x ih =>
    rw [List.map_append, List.map_singleton, scanState_concat, reduceOption_concat]
    cases x with
    | none => rwa [Option.toList_none, List.append_nil]
    | some x =>
      rw [Exact.ofOption, rollingMeanStep_of]
      exact ih.feed x

/-- A bar without a value has no mean. -/
theorem getElem?_rollingMean_none (n least : Nat) (hx : xs[i]? = some none) :
    (rollingMean n least (xs.map Exact.ofOption))[i]? = some .missing := by
  obtain ⟨hi, hx⟩ := List.getElem?_eq_some_iff.1 hx
  rw [rollingMean, getElem?_scan _ _ (by rwa [List.length_map]), List.getElem_map, hx]
  rfl

variable [IsStrictOrderedRing K]

/-- A bar with a value has the mean of the latest `n` values present, once there are enough of them. -/
theorem getElem?_rollingMean (hn : 0 < n) (least : Nat) (hx : xs[i]? = some (some x)) :
    (rollingMean n least (xs.map Exact.ofOption))[i]? =
      some (if max least 1 ≤ (latest n i xs).length then .of (mean (latest n i xs)) else .missing) := by
  obtain ⟨hi, hx⟩ := List.getElem?_eq_some_iff.1 hx
  have hfed := (averages_scanState hn least (xs.take i)).feed x
  have hlatest : latest n i xs = ((xs.take i).reduceOption ++ [x]).rtake n := by
    rw [latest, List.take_succ_eq_append_getElem hi, hx, reduceOption_concat, Option.toList_some]
  rw [rollingMean, getElem?_scan _ _ (by rwa [List.length_map]), List.getElem_map, hx, ← List.map_take, hlatest,
    Exact.ofOption, rollingMeanStep_of, hfed.weight_eq]
  split
  · rename_i henough
    rw [hfed.value_eq (List.ne_nil_of_length_pos (by omega))]
  · rfl

/-- The mean that exists from the first value on has one at every bar with a value. -/
theorem getElem?_rollingMean_one (hn : 0 < n) (hx : xs[i]? = some (some x)) :
    (rollingMean n 1 (xs.map Exact.ofOption))[i]? = some (.of (mean (latest n i xs))) := by
  rw [getElem?_rollingMean hn 1 hx, if_pos (by have := length_latest_pos hn hx; omega)]

end EquityScreen
