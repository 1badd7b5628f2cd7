import Mathlib.Algebra.BigOperators.Intervals
import Mathlib.Algebra.Order.BigOperators.Ring.Finset
import Mathlib.Algebra.Order.Ring.Rat
import Mathlib.Analysis.Convex.Basic
import EquityScreen.Proofs.Lemmas.Means

/-!
# Means that fade are weighted means

Two means let what there was fade by a share with what comes next. Over exact numbers both have a closed form
(`fading_means_closed`). The weighted mean ages with every bar: a value counts `(1 - share) ^ d` at the `d`-th bar after its
own, a gap included, and the weights are divided out. The decaying mean ages with values only: each new one counts its share,
and the first one all that the others leave. Both are sums of numbers that fade (`faded`), which one more number continues
(`faded_succ`).
-/

namespace EquityScreen

open Quantity

variable {K : Type} [Field K]

/-! ## Numbers that fade -/

/-- The sum of the first `n` numbers, each of which has faded by `decay` with every one after it. -/
def faded (decay : K) (n : Nat) (x : Nat → K) : K := ∑ i ∈ Finset.range n, decay ^ (n - 1 - i) * x i

/-- One number more: what there was fades, and the number comes in. -/
theorem faded_succ (decay : K) (n : Nat) (x : Nat → K) : faded decay (n + 1) x = decay * faded decay n x + x n := by
  rw [faded, faded, Finset.sum_range_succ, Finset.mul_sum]
  congr 1
  · refine Finset.sum_congr rfl fun i hi => ?_
    have hlt : i < n := Finset.mem_range.1 hi
    rw [← mul_assoc, ← pow_succ', show n + 1 - 1 - i = n - 1 - i + 1 by omega]
  · simp

theorem faded_congr {decay : K} {n : Nat} {x y : Nat → K} (h : ∀ i < n, x i = y i) : faded decay n x = faded decay n y :=
  Finset.sum_congr rfl fun i hi => by rw [h i (Finset.mem_range.1 hi)]

/-! ## Values at their bars -/

/-- The value of a column at a bar, and zero at a bar that has none. -/
def valueAt (xs : List (Option K)) (i : Nat) : K := (xs[i]?.join).getD 0

/-- The bars of a column up to the bar `t` that have a value. -/
def barsSeen (xs : List (Option K)) (t : Nat) : Finset Nat :=
  (Finset.range (t + 1)).filter fun i => (xs[i]?.join).isSome = true

/-- The sum over the bars with a value is one over all bars, at which a bar without one counts nothing. -/
theorem sum_barsSeen (decay : K) (xs : List (Option K)) (t : Nat) (x : Nat → K) :
    ∑ i ∈ barsSeen xs t, decay ^ (t - i) * x i =
      faded decay (t + 1) fun i => if (xs[i]?.join).isSome = true then x i else 0 := by
  rw [barsSeen, Finset.sum_filter, faded, Nat.add_sub_cancel]
  simp only [mul_ite, mul_zero]

/-- A value that was seen is that of a bar with a value, and the other way round. -/
theorem mem_seen_iff {xs : List (Option K)} {t : Nat} {x : K} :
    x ∈ (xs.take (t + 1)).reduceOption ↔ ∃ i ∈ barsSeen xs t, valueAt xs i = x := by
  rw [List.reduceOption_mem_iff, List.mem_iff_getElem?]
  simp only [barsSeen, valueAt, Finset.mem_filter, Finset.mem_range, List.getElem?_take]
  constructor
  · rintro ⟨i, hi⟩
    by_cases hlt : i < t + 1
    · rw [if_pos hlt] at hi
      exact ⟨i, ⟨hlt, by simp [hi]⟩, by simp [hi]⟩
    · rw [if_neg hlt] at hi
      exact absurd hi (by simp)
  · rintro ⟨i, ⟨hlt, hsome⟩, rfl⟩
    obtain ⟨x, hx⟩ := Option.isSome_iff_exists.1 hsome
    refine ⟨i, ?_⟩
    rw [if_pos hlt, hx, Option.getD_some]
    exact Option.join_eq_some_iff.1 hx

theorem barsSeen_eq_empty_iff {xs : List (Option K)} {t : Nat} :
    barsSeen xs t = ∅ ↔ (xs.take (t + 1)).reduceOption = [] := by
  rw [List.eq_nil_iff_forall_not_mem, Finset.eq_empty_iff_forall_notMem]
  constructor
  · intro h x hx
    obtain ⟨i, hi, -⟩ := mem_seen_iff.1 hx
    exact h i hi
  · intro h i hi
    exact h _ (mem_seen_iff.2 ⟨i, hi, rfl⟩)

/-! ## Values one after another -/

/-- The mean of values of which the first counts whole and each later one its share, all fading by the rest. -/
def decayed (share : K) (ys : List K) : K :=
  faded (1 - share) ys.length fun q => (if q = 0 then 1 else share) * ys.getD q 0

theorem decayed_singleton (share y : K) : decayed share [y] = y := by
  simp [decayed, faded]

/-- One value more counts its share, and what there was the rest. -/
theorem decayed_concat {ys : List K} (hys : ys ≠ []) (share y : K) :
    decayed share (ys ++ [y]) = (1 - share) * decayed share ys + share * y := by
  have hlast : (ys ++ [y]).getD ys.length 0 = y := by simp
  have hbefore : ∀ q < ys.length, (ys ++ [y]).getD q 0 = ys.getD q 0 := fun q hq => by
    rw [List.getD_eq_getElem?_getD, List.getD_eq_getElem?_getD, List.getElem?_append_left hq]
  have hlength : ys.length ≠ 0 := fun h => hys (List.eq_nil_of_length_eq_zero h)
  rw [decayed, List.length_append, List.length_singleton, faded_succ, if_neg hlength, hlast, decayed]
  congr 2
  exact faded_congr fun q hq => by rw [hbefore q hq]

/-- The first value by itself, and the later ones by their shares. -/
theorem decayed_cons (share first : K) (rest : List K) :
    decayed share (first :: rest) = (1 - share) ^ rest.length * first +
      ∑ q ∈ Finset.Ico 1 (rest.length + 1), share * (1 - share) ^ (rest.length - q) * (first :: rest).getD q 0 := by
  rw [decayed, faded, List.length_cons, Finset.range_eq_Ico, Finset.sum_eq_sum_Ico_succ_bot (Nat.succ_pos _),
    Nat.add_sub_cancel]
  congr 1
  · simp
  · refine Finset.sum_congr rfl fun q hq => ?_
    have hlate : q ≠ 0 := Nat.one_le_iff_ne_zero.1 (Finset.mem_Ico.1 hq).1
    rw [if_neg hlate]
    ring

/-! ## Bounds -/

section Bounds

/-- There are a least and a greatest one, unless there are none. -/
theorem exists_bounds {α : Type} [LinearOrder α] {ys : List α} (hys : ys ≠ []) :
    ∃ least greatest, ys.min? = some least ∧ ys.max? = some greatest ∧ ∀ y ∈ ys, y ∈ Set.Icc least greatest := by
  obtain ⟨least, hleast⟩ := Option.isSome_iff_exists.1 (List.isSome_min?_iff.2 hys)
  obtain ⟨greatest, hgreatest⟩ := Option.isSome_iff_exists.1 (List.isSome_max?_iff.2 hys)
  exact ⟨least, greatest, hleast, hgreatest, fun y hy =>
    ⟨(List.min?_eq_some_iff.1 hleast).2 y hy, (List.max?_eq_some_iff.1 hgreatest).2 y hy⟩⟩

variable [LinearOrder K] [IsStrictOrderedRing K] {share least greatest : K}

/-- The decaying mean of numbers between bounds lies between them: every step takes a mean of two such. -/
theorem decayed_mem_Icc (hpos : 0 < share) (hwhole : share ≤ 1) {ys : List K} (hne : ys ≠ [])
    (hys : ∀ y ∈ ys, y ∈ Set.Icc least greatest) : decayed share ys ∈ Set.Icc least greatest := by
  induction ys using List.reverseRecOn with
  | nil => exact absurd rfl hne
  | append_singleton ys y ih =>
    obtain ⟨hbefore, hy⟩ := List.forall_mem_append.1 hys
    have hy := hy y List.mem_cons_self
    by_cases hfirst : ys = []
    · rw [hfirst, List.nil_append, decayed_singleton]
      exact hy
    · rw [decayed_concat hfirst]
      have hmean := convex_Icc least greatest (ih hfirst hbefore) hy (sub_nonneg.2 hwhole) hpos.le (sub_add_cancel 1 share)
      rwa [smul_eq_mul, smul_eq_mul] at hmean

/-- A weighted sum of numbers between bounds lies between the bounds times the sum of the weights. -/
theorem weighted_mem_Icc (hwhole : share ≤ 1) {xs : List (Option K)} {t : Nat}
    (hxs : ∀ i ∈ barsSeen xs t, valueAt xs i ∈ Set.Icc least greatest) :
    let weights := ∑ i ∈ barsSeen xs t, (1 - share) ^ (t - i)
    ∑ i ∈ barsSeen xs t, (1 - share) ^ (t - i) * valueAt xs i ∈ Set.Icc (weights * least) (weights * greatest) := by
  intro weights
  have hweight : ∀ i, 0 ≤ (1 - share) ^ (t - i) := fun i => pow_nonneg (sub_nonneg.2 hwhole) _
  rw [Finset.sum_mul, Finset.sum_mul]
  exact ⟨Finset.sum_le_sum fun i hi => mul_le_mul_of_nonneg_left (hxs i hi).1 (hweight i),
    Finset.sum_le_sum fun i hi => mul_le_mul_of_nonneg_left (hxs i hi).2 (hweight i)⟩

/-- No weight is left where nothing was seen, or where the share is the whole and the bar itself has no value. -/
theorem weights_eq_zero_iff (hwhole : share ≤ 1) {xs : List (Option K)} {t : Nat} (ht : t < xs.length) :
    ∑ i ∈ barsSeen xs t, (1 - share) ^ (t - i) = 0 ↔
      (xs.take (t + 1)).reduceOption = [] ∨ share = 1 ∧ xs[t]? = some none := by
  have hweight : ∀ i ∈ barsSeen xs t, 0 ≤ (1 - share) ^ (t - i) := fun i _ => pow_nonneg (sub_nonneg.2 hwhole) _
  rw [Finset.sum_eq_zero_iff_of_nonneg hweight, ← barsSeen_eq_empty_iff]
  constructor
  · intro h
    rcases Finset.eq_empty_or_nonempty (barsSeen xs t) with hnone | ⟨i, hi⟩
    · exact .inl hnone
    · have hshare : 1 - share = 0 := eq_zero_of_pow_eq_zero (h i hi)
      refine .inr ⟨(sub_eq_zero.1 hshare).symm, ?_⟩
      rw [List.getElem?_eq_getElem ht, Option.some_inj]
      by_contra hvalue
      have hlast : t ∈ barsSeen xs t := by
        simp [barsSeen, List.getElem?_eq_getElem ht, Option.isSome_iff_ne_none, hvalue]
      have hone := h t hlast
      rw [Nat.sub_self, pow_zero] at hone
      exact one_ne_zero hone
  · rintro (hnone | ⟨rfl, hgap⟩) i hi
    · rw [hnone] at hi
      exact absurd hi (Finset.notMem_empty i)
    · have hbefore : t - i ≠ 0 := by
        intro hlast
        simp only [barsSeen, Finset.mem_filter, Finset.mem_range] at hi
        obtain rfl : i = t := by omega
        simp [hgap] at hi
      rw [sub_self, zero_pow hbefore]

end Bounds

/-! ## The passes -/

variable [LinearOrder K] [Rooted K]

/-- One bar of the weighted mean: both sums fade, and a value comes in with weight one. -/
theorem weightedMeanStep_ofOption (share y weights : K) (x : Option K) :
    let y' := (1 - share) * y + x.getD 0
    let weights' := (1 - share) * weights + if x.isSome = true then 1 else 0
    weightedMeanStep (Exact.of share) (.of y, .of weights) (.ofOption x) =
      ((.of y', .of weights'), if 0 < weights' then .of y' / .of weights' else missing) := by
  cases x with
  | none =>
    have hmissing : isMissing (Exact.missing : Exact K) = true := rfl
    simp only [Exact.ofOption, weightedMeanStep, hmissing, Exact.one_eq, Exact.zero_eq, Exact.of_sub_of, Exact.of_mul_of,
      mul_comm y, mul_comm weights]
    simp
  | some x => exact weightedMeanStep_of share y weights x

/-- After some bars the sums are those of the values and of their weights, all faded. -/
theorem scanState_weightedMean (share : K) (xs : List (Option K)) {n : Nat} (hn : n ≤ xs.length) :
    scanState (weightedMeanStep (Exact.of share)) (zero, zero) ((xs.take n).map Exact.ofOption) =
      (.of (faded (1 - share) n (valueAt xs)),
        .of (faded (1 - share) n fun i => if (xs[i]?.join).isSome = true then 1 else 0)) := by
  induction n with
  | zero => simp [scanState, faded, Exact.zero_eq]
  | succ n ih =>
    have hbar : xs[n]?.join = xs[n] := by rw [List.getElem?_eq_getElem hn, Option.join_some]
    rw [List.take_succ_eq_append_getElem hn, List.map_append, List.map_singleton, scanState_concat, ih (Nat.le_of_succ_le hn),
      weightedMeanStep_ofOption, faded_succ, faded_succ, valueAt, hbar]

/-- After some bars the decaying mean is that of the values present, if there is one. -/
theorem scanState_decayingMean (share : K) (xs : List (Option K)) :
    scanState (decayingMeanStep (Exact.of share)) missing (xs.map Exact.ofOption) =
      if xs.reduceOption = [] then .missing else .of (decayed share xs.reduceOption) := by
  induction xs using List.reverseRecOn with
  | nil => rfl
  | append_singleton xs x ih =>
    rw [List.map_append, List.map_singleton, scanState_concat, ih, reduceOption_concat]
    cases x with
    | none =>
      rw [Option.toList_none, List.append_nil]
      rfl
    | some x =>
      rw [Option.toList_some, if_neg (List.concat_ne_nil _ _)]
      by_cases hfirst : xs.reduceOption = []
      · rw [if_pos hfirst, hfirst, List.nil_append, decayed_singleton]
        rfl
      · rw [if_neg hfirst, decayed_concat hfirst, Exact.ofOption, decayingMeanStep_of]

/-- The decaying mean at a bar is what it is after the bar. -/
theorem getElem?_decayingMean (share : K) {xs : List (Option K)} {t : Nat} (ht : t < xs.length) :
    (decayingMean (.of share) (xs.map Exact.ofOption))[t]? =
      some (if (xs.take (t + 1)).reduceOption = [] then .missing else .of (decayed share (xs.take (t + 1)).reduceOption)) := by
  have hbar : t < (xs.map Exact.ofOption).length := by rwa [List.length_map]
  have hstate := scanState_decayingMean share (xs.take (t + 1))
  rw [List.map_take, List.take_succ_eq_append_getElem hbar, scanState_concat] at hstate
  rw [decayingMean, getElem?_scan _ _ hbar, ← hstate]
  rfl

/-- The weighted mean at a bar divides the sum of the values by that of the weights, unless no weight is left. -/
theorem getElem?_weightedMean (share : K) {xs : List (Option K)} {t : Nat} (ht : t < xs.length) :
    let weights := ∑ i ∈ barsSeen xs t, (1 - share) ^ (t - i)
    let values := ∑ i ∈ barsSeen xs t, (1 - share) ^ (t - i) * valueAt xs i
    (weightedMean (.of share) (xs.map Exact.ofOption))[t]? =
      some (if 0 < weights then .of (values / weights) else .missing) := by
  intro weights values
  have hbar : t < (xs.map Exact.ofOption).length := by rwa [List.length_map]
  have hweights : weights = faded (1 - share) (t + 1) fun i => if (xs[i]?.join).isSome = true then 1 else 0 := by
    rw [← sum_barsSeen (1 - share) xs t fun _ => 1]
    simp only [mul_one, weights]
  have hvalues : values = faded (1 - share) (t + 1) (valueAt xs) := by
    rw [show values = _ from sum_barsSeen (1 - share) xs t (valueAt xs)]
    refine faded_congr fun i _ => ?_
    by_cases hsome : (xs[i]?.join).isSome = true
    · rw [if_pos hsome]
    · rw [if_neg hsome, valueAt, Option.not_isSome_iff_eq_none.1 hsome, Option.getD_none]
  have hjoin : xs[t]?.join = xs[t] := by rw [List.getElem?_eq_getElem ht, Option.join_some]
  rw [faded_succ, hjoin] at hweights
  rw [faded_succ, valueAt, hjoin] at hvalues
  rw [weightedMean, getElem?_scan _ _ hbar, ← List.map_take, scanState_weightedMean share xs ht.le, List.getElem_map,
    weightedMeanStep_ofOption]
  dsimp only
  rw [← hweights, ← hvalues]
  by_cases hpos : 0 < weights
  · rw [if_pos hpos, if_pos hpos, Exact.of_div_of hpos.ne']
  · rw [if_neg hpos, if_neg hpos]
    rfl

variable [IsStrictOrderedRing K]

/-- The means that fade in closed form. For every share above zero that is at most the whole, and every bar of a column that may
lack values: the weighted mean is the sum of the values seen, each with weight `(1 - share) ^ d` at the `d`-th bar after its own,
divided by the sum of these weights; it is missing where this sum is zero, which is before the first value and, where the share
is the whole, at the bars without one. The decaying mean is missing before the first value and then has the first of the values
seen with weight `(1 - share) ^ d` after `d` more of them, and each later one with its share of that. Wherever it exists, either
mean lies between the least and the greatest of the values seen. -/
theorem fading_means_closed {share : K} (hpos : 0 < share) (hwhole : share ≤ 1) (xs : List (Option K)) {t : Nat}
    (ht : t < xs.length) :
    let seen := (xs.take (t + 1)).reduceOption
    let weights := ∑ i ∈ barsSeen xs t, (1 - share) ^ (t - i)
    let values := ∑ i ∈ barsSeen xs t, (1 - share) ^ (t - i) * valueAt xs i
    let weighted := (weightedMean (.of share) (xs.map Exact.ofOption))[t]?
    let decaying := (decayingMean (.of share) (xs.map Exact.ofOption))[t]?
    (weighted = some (if weights = 0 then .missing else .of (values / weights)) ∧
        (weights = 0 ↔ seen = [] ∨ share = 1 ∧ xs[t]? = some none)) ∧
      ((seen = [] → decaying = some .missing) ∧
        ∀ first rest, seen = first :: rest → decaying = some (.of ((1 - share) ^ rest.length * first +
          ∑ q ∈ Finset.Ico 1 (rest.length + 1), share * (1 - share) ^ (rest.length - q) * seen.getD q 0))) ∧
      ∀ y, weighted = some (.of y) ∨ decaying = some (.of y) →
        ∃ least greatest, seen.min? = some least ∧ seen.max? = some greatest ∧ y ∈ Set.Icc least greatest := by
  intro seen weights values weighted decaying
  have hweighted : weighted = some (if 0 < weights then .of (values / weights) else .missing) := getElem?_weightedMean share ht
  have hdecaying : decaying = some (if seen = [] then .missing else .of (decayed share seen)) := getElem?_decayingMean share ht
  have hweights : weights = 0 ↔ seen = [] ∨ share = 1 ∧ xs[t]? = some none := weights_eq_zero_iff hwhole ht
  have hnonneg : 0 ≤ weights := Finset.sum_nonneg fun i _ => pow_nonneg (sub_nonneg.2 hwhole) _
  refine ⟨⟨?_, hweights⟩, ⟨fun hnone => ?_, fun first rest hseen => ?_⟩, fun y hy => ?_⟩
  · rw [hweighted]
    by_cases hzero : weights = 0
    · rw [if_pos hzero, if_neg hzero.not_gt]
    · rw [if_neg hzero, if_pos (lt_of_le_of_ne' hnonneg hzero)]
  · rw [hdecaying, if_pos hnone]
  · rw [hdecaying, hseen, if_neg (List.cons_ne_nil _ _), decayed_cons]
  · have hne : seen ≠ [] := by
      intro hnone
      rw [hweighted, hdecaying, if_neg (hweights.2 (.inl hnone)).not_gt, if_pos hnone] at hy
      simp at hy
    obtain ⟨least, greatest, hleast, hgreatest, hbounds⟩ := exists_bounds hne
    refine ⟨least, greatest, hleast, hgreatest, ?_⟩
    rcases hy with hy | hy
    · rw [hweighted] at hy
      split at hy
      · rename_i hleft
        obtain rfl := Exact.of.inj (Option.some.inj hy)
        obtain ⟨hlower, hupper⟩ := weighted_mem_Icc hwhole fun i hi => hbounds _ (mem_seen_iff.2 ⟨i, hi, rfl⟩)
        exact ⟨(le_div_iff₀' hleft).2 hlower, (div_le_iff₀' hleft).2 hupper⟩
      · simp at hy
    · rw [hdecaying, if_neg hne] at hy
      obtain rfl := Exact.of.inj (Option.some.inj hy)
      exact decayed_mem_Icc hpos hwhole hne hbounds

/-- Of four values the first and the third are missing. With a share of one half the weighted mean counts the gap, so that the
second value weighs a quarter beside the last; the decaying mean does not, and has them in equal parts. -/
theorem fading_over_gap :
    let xs : List (Option ℚ) := [none, some 2, none, some 6]
    (weightedMean (.of (1 / 2)) (xs.map Exact.ofOption))[0]? = some .missing ∧
      (weightedMean (.of (1 / 2)) (xs.map Exact.ofOption))[3]? = some (.of (26 / 5)) ∧
      (decayingMean (.of (1 / 2)) (xs.map Exact.ofOption))[3]? = some (.of 4) ∧
      (xs.take 4).reduceOption.min? = some 2 ∧ (xs.take 4).reduceOption.max? = some 6 ∧ (4 : ℚ) ∈ Set.Icc 2 6 := by
  intro xs
  have hshare : (0 : ℚ) < 1 / 2 ∧ (1 / 2 : ℚ) ≤ 1 := by norm_num
  obtain ⟨⟨hfirst, hnone⟩, -⟩ := fading_means_closed hshare.1 hshare.2 xs (by decide : 0 < xs.length)
  obtain ⟨⟨hweighted, -⟩, ⟨-, hdecaying⟩, hbounds⟩ := fading_means_closed hshare.1 hshare.2 xs (by decide : 3 < xs.length)
  have hseen : (xs.take 4).reduceOption = [2, 6] := rfl
  have hbars : barsSeen xs 3 = {1, 3} := by decide
  have hleast : (xs.take 4).reduceOption.min? = some 2 := by decide +kernel
  have hgreatest : (xs.take 4).reduceOption.max? = some 6 := by decide +kernel
  have hlast : (decayingMean (.of (1 / 2)) (xs.map Exact.ofOption))[3]? = some (.of 4) := by
    rw [hdecaying 2 [6] hseen, hseen]
    norm_num
  refine ⟨?_, ?_, hlast, hleast, hgreatest, ?_⟩
  · rw [hfirst, if_pos (hnone.2 (.inl rfl))]
  · rw [hweighted, hbars]
    norm_num [xs, valueAt]
  · obtain ⟨least, greatest, hleast', hgreatest', hmem⟩ := hbounds 4 (.inr hlast)
    obtain rfl := Option.some.inj (hleast'.symm.trans hleast)
    obtain rfl := Option.some.inj (hgreatest'.symm.trans hgreatest)
    exact hmem

end EquityScreen
