import Mathlib.Algebra.Order.BigOperators.Group.List
import Mathlib.Algebra.Order.Ring.Rat
import EquityScreen.Indicator.Formula
import EquityScreen.Proofs.Lemmas.Means

/-!
# Where the relative strength exists

A strength compares a mean gain with a mean loss, and without a loss there is none. Gains and losses are numbers at every bar,
zero where a close is missing, and none is negative; so a smoothed loss is zero exactly when no bar that counts in it has a loss
(`RsiMethod.Smooths`). Which bars count depends on the method (`RsiMethod.reach`). Over exact numbers a bar has a strength exactly
when the close fell at one of them, and it lies between 0 and 100, the latter excluded (`strength_iff_fall`).

The decaying and the weighted mean take one value after the other and let those before it fade by the share `1 / n`. They share one
step (`RsiMethod.Smooths.concat`), in which nothing fades out completely unless the share is the whole.
-/

namespace EquityScreen

open Quantity

variable {K : Type}

/-- The close falls at a bar: it and the close of the bar before are present, and it lies below. -/
def FallsAt [LT K] (close : List (Option K)) (i : Nat) : Prop :=
  ∃ j before now, i = j + 1 ∧ close[j]? = some (some before) ∧ close[i]? = some (some now) ∧ now < before

/-- How many bars count in what is smoothed over some bars: the last `n` of them in a rolling mean, and all of them where values
fade, except that over one bar nothing is left of the bars before. -/
def RsiMethod.reach (method : RsiMethod) (n bars : Nat) : Nat :=
  match method with
  | .sma => n
  | .ema | .china => if n = 1 then 1 else bars

theorem RsiMethod.reach_of_ne {method : RsiMethod} (h : method ≠ .sma) (n bars : Nat) :
    method.reach n bars = if n = 1 then 1 else bars := by
  cases method with
  | sma => exact absurd rfl h
  | ema | china => rfl

/-! ## Gains and losses -/

section Moves

variable [Field K] [LinearOrder K]

theorem exact_max_zero [Rooted K] (x : K) : (if below zero (Exact.of x) then Exact.of x else zero) = .of (max x 0) := by
  rw [Exact.zero_eq, Exact.below_of_of, max_comm, max_def_lt]
  by_cases h : 0 < x <;> simp [h]

/-- How far the first close lies above the second. -/
def excess (a b : Option K) : K :=
  match a, b with
  | some a, some b => max (a - b) 0
  | _, _ => 0

/-- The gain and the loss of each bar. -/
def moves (close : List (Option K)) : List (K × K) :=
  List.zipWith (fun before now => (excess now before.join, excess before.join now)) (none :: close.map some) close

theorem length_moves (close : List (Option K)) : (moves close).length = close.length := by
  rw [moves, List.length_zipWith, List.length_cons, List.length_map]
  omega

theorem excess_nonneg (a b : Option K) : 0 ≤ excess a b := by
  cases a <;> cases b
  case some.some => exact le_max_right _ _
  all_goals exact le_rfl

theorem moves_nonneg {close : List (Option K)} {m : K × K} (hm : m ∈ moves close) : 0 ≤ m.1 ∧ 0 ≤ m.2 := by
  obtain ⟨i, hi⟩ := List.getElem?_of_mem hm
  obtain ⟨before, now, -, -, rfl⟩ := List.getElem?_zipWith_eq_some.1 hi
  exact ⟨excess_nonneg _ _, excess_nonneg _ _⟩

variable [IsStrictOrderedRing K]

/-- A loss is above zero where the close falls. -/
theorem loss_pos_iff {close : List (Option K)} {i : Nat} {m : K × K} (h : (moves close)[i]? = some m) :
    0 < m.2 ↔ FallsAt close i := by
  obtain ⟨before, now, hbefore, hnow, rfl⟩ := List.getElem?_zipWith_eq_some.1 h
  cases i with
  | zero =>
    obtain rfl := Option.some.inj hbefore
    refine iff_of_false (lt_irrefl 0) ?_
    rintro ⟨j, -, -, hj, -⟩
    exact absurd hj (Nat.succ_ne_zero j).symm
  | succ j =>
    rw [List.getElem?_cons_succ, List.getElem?_map, Option.map_eq_some_iff] at hbefore
    obtain ⟨before, hbefore, rfl⟩ := hbefore
    constructor
    · intro hpos
      cases before with
      | none => exact absurd hpos (lt_irrefl 0)
      | some b =>
        cases now with
        | none => exact absurd hpos (lt_irrefl 0)
        | some x => exact ⟨j, b, x, rfl, hbefore, hnow, sub_pos.1 ((lt_max_iff.1 hpos).resolve_right (lt_irrefl 0))⟩
    · rintro ⟨j', b, x, hj, hb, hx, hlt⟩
      obtain rfl := Nat.succ.inj hj
      obtain rfl := Option.some.inj (hbefore.symm.trans hb)
      obtain rfl := Option.some.inj (hnow.symm.trans hx)
      exact lt_max_of_lt_left (sub_pos.2 hlt)

variable [Rooted K]

/-- A close above or below the one before has a gain or a loss; without one of the two there is neither. -/
theorem gainLossStep_ofOption (before : Option (Option K)) (now : Option K) :
    (gainLossStep (before.map Exact.ofOption) (.ofOption now)).2 =
      (.of (excess now before.join), .of (excess before.join now)) := by
  rcases before with _ | _ | b
  · cases now <;> exact congrArg₂ Prod.mk Exact.zero_eq Exact.zero_eq
  · cases now <;> exact congrArg₂ Prod.mk Exact.zero_eq Exact.zero_eq
  · cases now with
    | none => exact congrArg₂ Prod.mk Exact.zero_eq Exact.zero_eq
    | some x =>
      have hdelta : Exact.of x - Exact.of b = .of (x - b) := Exact.of_sub_of x b
      have hloss : below (Exact.of (x - b)) zero = below zero (Exact.of (b - x)) := by
        rw [Exact.zero_eq, Exact.below_of_of, Exact.below_of_of, decide_eq_decide, sub_neg, sub_pos]
      simp only [gainLossStep, Option.map_some, Exact.ofOption, hdelta, hloss, Exact.neg_of, neg_sub, exact_max_zero]
      rfl

/-- The pass over closes gives their gains and losses, which are numbers even where a close is missing. -/
theorem gainsLosses_map_ofOption (close : List (Option K)) :
    gainsLosses (close.map Exact.ofOption) = (moves close).map fun m => (.of m.1, .of m.2) := by
  have hbefore : (none :: (close.map Exact.ofOption).map some) = (none :: close.map some).map (Option.map Exact.ofOption) := by
    rw [List.map_cons, List.map_map, List.map_map]
    rfl
  rw [gainsLosses, scan_eq_zipWith id (fun _ _ => rfl)]
  simp only [id]
  rw [hbefore, List.zipWith_map, moves, List.map_zipWith]
  simp only [gainLossStep_ofOption]

end Moves

/-! ## Smoothing numbers that are not negative -/

section Smoothing

variable [Field K] [LinearOrder K]

/-- A number smooths values that are not negative: it is not negative, and above zero exactly when one that counts is. -/
structure RsiMethod.Smooths (method : RsiMethod) (n : Nat) (xs : List K) (y : K) : Prop where
  nonneg : 0 ≤ y
  pos_iff : 0 < y ↔ ∃ x ∈ xs.rtake (method.reach n xs.length), 0 < x

variable {method : RsiMethod} {n : Nat} {xs : List K} {x y a b : K}

/-- Where values fade, a value above zero counts after one more: the last one, or unless nothing is left of them, one before. -/
theorem RsiMethod.exists_pos_concat (hmethod : method ≠ .sma) (n : Nat) (xs : List K) (x : K) :
    (∃ z ∈ (xs ++ [x]).rtake (method.reach n (xs ++ [x]).length), 0 < z) ↔
      (n ≠ 1 ∧ ∃ z ∈ xs.rtake (method.reach n xs.length), 0 < z) ∨ 0 < x := by
  rw [RsiMethod.reach_of_ne hmethod, RsiMethod.reach_of_ne hmethod]
  by_cases hn : n = 1
  · rw [if_pos hn, List.rtake_concat_succ, List.rtake_zero]
    simp [hn]
  · rw [if_neg hn, if_neg hn, rtake_of_length_le le_rfl, rtake_of_length_le le_rfl]
    simp [hn, or_and_right, exists_or]

theorem RsiMethod.smooths_nil (method : RsiMethod) (n : Nat) : method.Smooths n ([] : List K) 0 :=
  ⟨le_rfl, by simp⟩

variable [IsStrictOrderedRing K]

theorem add_pos_iff_of_nonneg (ha : 0 ≤ a) (hb : 0 ≤ b) : 0 < a + b ↔ 0 < a ∨ 0 < b := by
  constructor
  · intro h
    by_contra hneither
    obtain ⟨ha', hb'⟩ := not_or.1 hneither
    exact absurd h (not_lt.2 (add_nonpos (not_lt.1 ha') (not_lt.1 hb')))
  · rintro (ha' | hb')
    · exact add_pos_of_pos_of_nonneg ha' hb
    · exact add_pos_of_nonneg_of_pos ha hb'

/-- The mean of numbers that are not negative is above zero when one of them is. -/
theorem mean_pos_iff (hxs : ∀ x ∈ xs, 0 ≤ x) (hne : xs ≠ []) : 0 < mean xs ↔ ∃ x ∈ xs, 0 < x := by
  rw [mean, div_pos_iff_of_pos_right (Nat.cast_pos.2 (List.length_pos_of_ne_nil hne))]
  constructor
  · intro h
    by_contra hnone
    push Not at hnone
    exact absurd h (List.sum_eq_zero fun x hx => le_antisymm (hnone x hx) (hxs x hx)).not_gt
  · rintro ⟨x, hx, hpos⟩
    exact hpos.trans_le (List.single_le_sum hxs x hx)

theorem one_sub_share_nonneg (hn : 1 ≤ n) : 0 ≤ 1 - 1 / (n : K) :=
  sub_nonneg.2 ((div_le_one (Nat.cast_pos.2 hn)).2 (Nat.one_le_cast.2 hn))

/-- One value more where values fade: what there was counts less, and nothing is left of it where the share is the whole. -/
theorem RsiMethod.Smooths.concat (h : method.Smooths n xs y) (hmethod : method ≠ .sma) (hn : 1 ≤ n) (hx : 0 ≤ x)
    {weight : K} (hweight : 0 < weight) : method.Smooths n (xs ++ [x]) ((1 - 1 / n) * y + weight * x) := by
  have hfade : 0 ≤ 1 - 1 / (n : K) := one_sub_share_nonneg hn
  have hrest : 0 < 1 - 1 / (n : K) ↔ n ≠ 1 := by
    rw [sub_pos, div_lt_one (Nat.cast_pos.2 hn), Nat.one_lt_cast]
    omega
  have hold : 0 ≤ (1 - 1 / (n : K)) * y := mul_nonneg hfade h.nonneg
  have hnew : 0 ≤ weight * x := mul_nonneg hweight.le hx
  refine ⟨add_nonneg hold hnew, ?_⟩
  rw [RsiMethod.exists_pos_concat hmethod, add_pos_iff_of_nonneg hold hnew, mul_pos_iff_of_pos_left hweight, ← h.pos_iff,
    ← hrest]
  refine or_congr_left ⟨fun hpos => ?_, fun ⟨hleft, hright⟩ => mul_pos hleft hright⟩
  exact ⟨pos_of_mul_pos_left hpos h.nonneg, pos_of_mul_pos_right hpos hfade⟩

/-! ### The three methods -/

variable [Rooted K] {i : Nat}

theorem exact_share (hn : 1 ≤ n) : (one / count n : Exact K) = .of (1 / n) := by
  rw [Exact.one_eq, Exact.count_eq, Exact.of_div_of (Nat.cast_ne_zero.2 (Nat.one_le_iff_ne_zero.1 hn))]

/-- After the first value the decaying mean smooths those that there are. -/
theorem decayingMean_smooths (hn : 1 ≤ n) (xs : List K) (hxs : ∀ x ∈ xs, 0 ≤ x) (hne : xs ≠ []) :
    ∃ y, scanState (decayingMeanStep (Exact.of (1 / (n : K)))) missing (xs.map Exact.of) = .of y ∧
      RsiMethod.ema.Smooths n xs y := by
  have hshare : 0 < 1 / (n : K) := one_div_pos.2 (Nat.cast_pos.2 hn)
  induction xs using List.reverseRecOn with
  | nil => exact absurd rfl hne
  | append_singleton xs x ih =>
    obtain ⟨hbefore, hx⟩ := List.forall_mem_append.1 hxs
    have hx := hx x List.mem_cons_self
    rw [List.map_append, List.map_singleton, scanState_concat]
    by_cases hfirst : xs = []
    · subst hfirst
      have hy := (RsiMethod.smooths_nil .ema n).concat (by simp) hn hx one_pos
      rw [mul_zero, zero_add, one_mul] at hy
      exact ⟨x, congrArg Prod.fst (decayingMeanStep_first _ x), hy⟩
    · obtain ⟨y, hstate, hy⟩ := ih hbefore hfirst
      rw [hstate, decayingMeanStep_of]
      exact ⟨_, rfl, hy.concat (by simp) hn hx hshare⟩

/-- After some values the sum of the weighted mean smooths them, and the sum of weights is not negative. -/
theorem weightedMean_smooths (hn : 1 ≤ n) (xs : List K) (hxs : ∀ x ∈ xs, 0 ≤ x) :
    ∃ y weights : K, scanState (weightedMeanStep (Exact.of (1 / (n : K)))) (zero, zero) (xs.map Exact.of) =
      (.of y, .of weights) ∧ RsiMethod.china.Smooths n xs y ∧ 0 ≤ weights := by
  have hfade : 0 ≤ 1 - 1 / (n : K) := one_sub_share_nonneg hn
  induction xs using List.reverseRecOn with
  | nil => exact ⟨0, 0, congrArg₂ Prod.mk Exact.zero_eq Exact.zero_eq, RsiMethod.smooths_nil _ n, le_rfl⟩
  | append_singleton xs x ih =>
    obtain ⟨hbefore, hx⟩ := List.forall_mem_append.1 hxs
    obtain ⟨y, weights, hstate, hy, hweights⟩ := ih hbefore
    rw [List.map_append, List.map_singleton, scanState_concat, hstate, weightedMeanStep_of]
    have hsum := hy.concat (by simp) hn (hx x List.mem_cons_self) one_pos
    rw [one_mul] at hsum
    exact ⟨_, _, rfl, hsum, add_nonneg (mul_nonneg hfade hweights) zero_le_one⟩

/-- Numbers that are not negative are smoothed, with each of the three methods. -/
theorem RsiMethod.getElem?_smooth (method : RsiMethod) (hn : 1 ≤ n) (hxs : ∀ x ∈ xs, 0 ≤ x) (hi : i < xs.length) :
    ∃ y, (method.smooth n (xs.map Exact.of))[i]? = some (.of y) ∧ method.Smooths n (xs.take (i + 1)) y := by
  have htake : xs.take (i + 1) = xs.take i ++ [xs[i]] := List.take_succ_eq_append_getElem hi
  have hupto : ∀ x ∈ xs.take (i + 1), 0 ≤ x := fun x hx => hxs x (List.mem_of_mem_take hx)
  cases method with
  | sma =>
    have hcolumn : xs.map Exact.of = (xs.map some).map Exact.ofOption := by
      rw [List.map_map]
      rfl
    have hbar : (xs.map some)[i]? = some (some xs[i]) := by
      rw [List.getElem?_map, List.getElem?_eq_getElem hi, Option.map_some]
    have hne : window n i xs ≠ [] := List.ne_nil_of_length_pos (by rw [length_window hi]; omega)
    have hwindow : ∀ x ∈ window n i xs, 0 ≤ x := fun x hx => hupto x (List.mem_of_mem_drop hx)
    refine ⟨mean (window n i xs), ?_, ?_, mean_pos_iff hwindow hne⟩
    · rw [smooth, hcolumn, getElem?_rollingMean_one hn hbar, latest_map_some]
    · exact div_nonneg (List.sum_nonneg hwindow) (Nat.cast_nonneg _)
  | ema =>
    obtain ⟨y, hstate, hy⟩ := decayingMean_smooths hn _ hupto (by rw [htake]; exact List.concat_ne_nil _ _)
    refine ⟨y, ?_, hy⟩
    rw [smooth, decayingMean, exact_share hn, getElem?_scan _ _ (by rwa [List.length_map]), List.getElem_map, ← List.map_take]
    rw [htake, List.map_append, List.map_singleton, scanState_concat] at hstate
    exact congrArg some hstate
  | china =>
    obtain ⟨y, weights, hstate, hy, hweights⟩ := weightedMean_smooths hn (xs.take i) fun x hx => hxs x (List.mem_of_mem_take hx)
    have hsum := hy.concat (by simp) hn (hxs _ (List.getElem_mem hi)) one_pos
    have htotal : 0 < (1 - 1 / (n : K)) * weights + 1 :=
      add_pos_of_nonneg_of_pos (mul_nonneg (one_sub_share_nonneg hn) hweights) one_pos
    rw [one_mul, ← htake] at hsum
    refine ⟨_, ?_, div_nonneg hsum.nonneg htotal.le, (div_pos_iff_of_pos_right htotal).trans hsum.pos_iff⟩
    rw [smooth, weightedMean, exact_share hn, getElem?_scan _ _ (by rwa [List.length_map]), List.getElem_map, ← List.map_take,
      hstate, weightedMeanStep_of, if_pos htotal, Exact.of_div_of htotal.ne']

end Smoothing

/-! ## The strength -/

section Strength

theorem RsiMethod.length_smooth {α : Type} [Quantity α] (method : RsiMethod) (n : Nat) (xs : List α) :
    (method.smooth n xs).length = xs.length := by
  cases method <;> exact length_scan _ _ _

variable [Field K] [LinearOrder K] [Rooted K]

/-- Without a loss there is no strength. -/
theorem strength_zero (gain : Exact K) : strength gain (.of (0 : K)) = .missing := by
  rw [strength, Exact.zero_eq, Exact.same_of_of]
  simp
  rfl

variable [IsStrictOrderedRing K]

/-- A gain and a loss have a strength between 0 and 100. -/
theorem exists_strength {gain loss : K} (hgain : 0 ≤ gain) (hloss : 0 < loss) :
    ∃ x, strength (Exact.of gain) (.of loss) = .of x ∧ 0 ≤ x ∧ x < 100 := by
  have hratio : 1 ≤ 1 + gain / loss := le_add_of_nonneg_right (div_nonneg hgain hloss.le)
  have hpos : 0 < 1 + gain / loss := zero_lt_one.trans_le hratio
  refine ⟨100 - 100 / (1 + gain / loss), ?_, ?_, ?_⟩
  · rw [strength, Exact.zero_eq, Exact.one_eq, Exact.hundred_eq, Exact.of_div_of hloss.ne', Exact.of_add_of,
      Exact.of_div_of hpos.ne', Exact.of_sub_of]
    simp [hloss.ne']
  · exact sub_nonneg.2 (div_le_self (by norm_num) hratio)
  · exact sub_lt_self _ (div_pos (by norm_num) hpos)

/-- The strength of a bar is that of a gain and a loss that are not negative, the loss above zero when the close fell at a bar that
counts. -/
theorem exists_smoothed_moves {n i : Nat} (hn : 1 ≤ n) (method : RsiMethod) {close : List (Option K)} (hi : i < close.length) :
    ∃ gain loss : K, (rsi n method (close.map Exact.ofOption))[i]? = some (strength (.of gain) (.of loss)) ∧ 0 ≤ gain ∧
      0 ≤ loss ∧ (0 < loss ↔ ∃ j ≤ i, i < j + method.reach n (i + 1) ∧ FallsAt close j) := by
  have hmoves : ∀ (part : K × K → K) (toPart : Exact K × Exact K → Exact K),
      (∀ m, toPart (.of m.1, .of m.2) = .of (part m)) →
        (gainsLosses (close.map Exact.ofOption)).map toPart = ((moves close).map part).map .of := by
    intro part toPart hpart
    rw [gainsLosses_map_ofOption, List.map_map, List.map_map]
    exact List.map_congr_left fun m _ => hpart m
  have hlength : ∀ part : K × K → K, i < ((moves close).map part).length := fun part => by
    rwa [List.length_map, length_moves]
  have hgains : ∀ g ∈ (moves close).map (·.1), 0 ≤ g := List.forall_mem_map.2 fun m hm => (moves_nonneg hm).1
  have hlosses : ∀ l ∈ (moves close).map (·.2), 0 ≤ l := List.forall_mem_map.2 fun m hm => (moves_nonneg hm).2
  obtain ⟨gain, hgain, hsmooth⟩ := method.getElem?_smooth hn hgains (hlength _)
  obtain ⟨loss, hloss, hsmooth'⟩ := method.getElem?_smooth hn hlosses (hlength _)
  refine ⟨gain, loss, ?_, hsmooth.nonneg, hsmooth'.nonneg, hsmooth'.pos_iff.trans ?_⟩
  · rw [rsi, hmoves (·.1) (·.1) fun _ => rfl, hmoves (·.2) (·.2) fun _ => rfl]
    exact List.getElem?_zipWith_eq_some.2 ⟨_, _, hgain, hloss, rfl⟩
  · rw [List.length_take_of_le (hlength _)]
    constructor
    · rintro ⟨x, hx, hpos⟩
      obtain ⟨j, hj, hreach, hx⟩ := (mem_window_iff (hlength _)).1 hx
      obtain ⟨m, hm, rfl⟩ := Option.map_eq_some_iff.1 (List.getElem?_map ▸ hx)
      exact ⟨j, hj, hreach, (loss_pos_iff hm).1 hpos⟩
    · rintro ⟨j, hj, hreach, hfall⟩
      have hm := List.getElem?_eq_getElem (l := moves close) (i := j) (by rw [length_moves]; omega)
      refine ⟨_, (mem_window_iff (hlength _)).2 ⟨j, hj, hreach, ?_⟩, (loss_pos_iff hm).2 hfall⟩
      rw [List.getElem?_map, hm, Option.map_some]

/-- A bar has a strength, and in its range, exactly when the close fell at a bar that counts. -/
theorem rsi_at {n i : Nat} (hn : 1 ≤ n) (method : RsiMethod) {close : List (Option K)} (hi : i < close.length) :
    (∃ j ≤ i, i < j + method.reach n (i + 1) ∧ FallsAt close j) ∧
        (∃ x, (rsi n method (close.map Exact.ofOption))[i]? = some (.of x) ∧ 0 ≤ x ∧ x < 100) ∨
      (∀ j ≤ i, i < j + method.reach n (i + 1) → ¬FallsAt close j) ∧
        (rsi n method (close.map Exact.ofOption))[i]? = some .missing := by
  obtain ⟨gain, loss, hrsi, hgain, hloss, hfall⟩ := exists_smoothed_moves hn method hi
  rcases hloss.lt_or_eq with hpos | hzero
  · obtain ⟨x, hx, hrange⟩ := exists_strength hgain hpos
    exact .inl ⟨hfall.1 hpos, x, hrsi.trans (congrArg some hx), hrange⟩
  · subst hzero
    refine .inr ⟨fun j hj hreach hfalls => ?_, hrsi.trans (congrArg some (strength_zero _))⟩
    exact lt_irrefl _ (hfall.2 ⟨j, hj, hreach, hfalls⟩)

/-- Where the relative strength exists, and its range. For every period of a bar or more, each of the three methods and every column
of closes, some of which may be missing: a bar has a strength, which lies between 0 and 100 and is not 100, exactly when the close
fell at one of the bars that count there. These are the last `n` bars for the rolling mean, and where values fade all bars so far,
or over one bar the bar itself; so there a strength over two bars or more exists for ever once it exists. -/
theorem strength_iff_fall {n : Nat} (hn : 1 ≤ n) (method : RsiMethod) (close : List (Option K)) :
    (rsi n method (close.map Exact.ofOption)).length = close.length ∧
    (∀ i < close.length,
      (∃ j ≤ i, i < j + method.reach n (i + 1) ∧ FallsAt close j) ∧
          (∃ x, (rsi n method (close.map Exact.ofOption))[i]? = some (.of x) ∧ 0 ≤ x ∧ x < 100) ∨
        (∀ j ≤ i, i < j + method.reach n (i + 1) → ¬FallsAt close j) ∧
          (rsi n method (close.map Exact.ofOption))[i]? = some .missing) ∧
    (method ≠ .sma → 2 ≤ n → ∀ (i j : Nat) (x : K), i ≤ j → j < close.length →
      (rsi n method (close.map Exact.ofOption))[i]? = some (.of x) →
        ∃ y, (rsi n method (close.map Exact.ofOption))[j]? = some (.of y)) := by
  refine ⟨?_, fun i hi => rsi_at hn method hi, fun hmethod hn' i j x hij hj hx => ?_⟩
  · simp [rsi, RsiMethod.length_smooth, gainsLosses]
  · have hall : j < method.reach n (j + 1) := by
      rw [RsiMethod.reach_of_ne hmethod, if_neg (by omega)]
      exact Nat.lt_succ_self j
    rcases rsi_at hn method (hij.trans_lt hj) with ⟨⟨l, hl, -, hfalls⟩, -⟩ | ⟨-, hmissing⟩
    · rcases rsi_at hn method hj with ⟨-, y, hy, -⟩ | ⟨hnone, -⟩
      · exact ⟨y, hy⟩
      · exact absurd hfalls (hnone l (hl.trans hij) (by omega))
    · rw [hmissing] at hx
      exact absurd hx (by simp)

/-- The close is missing at the second of five bars, so that it does not fall there, nor at the next one. It falls at the fourth,
and from there on the weighted mean over two bars has a strength. -/
theorem strength_behind_fall :
    let close : List (Option ℚ) := [some 5, none, some 4, some 3, some 6]
    (rsi 2 .china (close.map Exact.ofOption))[2]? = some .missing ∧
      ∃ x, (rsi 2 .china (close.map Exact.ofOption))[4]? = some (.of x) ∧ 0 ≤ x ∧ x < 100 := by
  intro close
  obtain ⟨-, hbar, -⟩ := strength_iff_fall (by decide : 1 ≤ 2) .china close
  have hfall : FallsAt close 3 := ⟨2, 4, 3, rfl, rfl, rfl, by decide +kernel⟩
  refine ⟨((hbar 2 (by decide)).resolve_left ?_).2, ((hbar 4 (by decide)).resolve_right ?_).2⟩
  · rintro ⟨⟨j, hj, -, k, before, now, rfl, hbefore, hnow, -⟩, -⟩
    rcases k with _ | _ | k
    · exact absurd hnow (by simp [close])
    · exact absurd hbefore (by simp [close])
    · omega
  · rintro ⟨hnone, -⟩
    exact hnone 3 (by decide) (by decide) hfall

end Strength

end EquityScreen
