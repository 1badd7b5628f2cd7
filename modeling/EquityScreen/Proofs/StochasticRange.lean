import Mathlib.Algebra.Order.Ring.Rat
import Mathlib.Analysis.Convex.Basic
import EquityScreen.Proofs.StochasticLines

/-!
# The stochastic lines stay between 0 and 100

Where no bar closes below its low or above its high, the position of a close is a percentage: the window of a bar has its own low
and high among others, so the close lies between the lowest low and the highest high (`HasPosition.mem_Icc`). The lines K and D
start in the middle, and each position moves them to a mean of where they were and of what comes in, with weights that are not
negative. So they stay percentages, whatever bars are passed over in between (`stochastic_lines_in_range`).
-/

namespace EquityScreen

open Quantity

variable {K : Type}

/-- The columns of bars that were made of columns. -/
theorem columns_of_candles {high low close : List (Option K)} {bars : List (Candle (Option K))}
    (hhigh : high.length = close.length) (hlow : low.length = close.length) (h : candles? high low close = some bars) :
    bars.map (·.high) = high ∧ bars.map (·.low) = low ∧ bars.map (·.close) = close := by
  rw [candles?, if_pos (by simp [hhigh, hlow])] at h
  obtain rfl := Option.some.inj h
  have hpairs : (high.zip (low.zip close)).map Prod.snd = low.zip close := List.map_snd_zip (by simp [hhigh, hlow])
  simp only [List.map_map]
  exact ⟨List.map_fst_zip (by simp [hhigh, hlow]),
    (List.map_map (f := Prod.snd) (g := Prod.fst)).symm.trans (by rw [hpairs, List.map_fst_zip hlow.le]),
    (List.map_map (f := Prod.snd) (g := Prod.snd)).symm.trans (by rw [hpairs, List.map_snd_zip hlow.ge])⟩

variable [Field K] [LinearOrder K]

/-- The bar closes between its low and its high, as far as it has them. -/
def Candle.ClosesWithin (c : Candle (Option K)) : Prop :=
  (∀ l x, c.low = some l → c.close = some x → l ≤ x) ∧ ∀ x h, c.close = some x → c.high = some h → x ≤ h

variable [IsStrictOrderedRing K] {n i : Nat} {bars : List (Candle (Option K))} {m1 m2 p : K}

/-- The position of a close that lies within its bar is a percentage. -/
theorem HasPosition.mem_Icc (hn : 0 < n) (hbars : ∀ c ∈ bars, c.ClosesWithin) (h : HasPosition n i bars p) :
    p ∈ Set.Icc (0 : K) 100 := by
  obtain ⟨-, highs, lows, closed, highest, lowest, apart⟩ := h
  rename_i top bottom x
  obtain ⟨c, hc, hclose⟩ : ∃ c, bars[i]? = some c ∧ c.close = some x := by simpa using closed
  obtain ⟨hfrom, hto⟩ := hbars c (List.mem_of_getElem? hc)
  have hhigh : c.high ∈ window n i (bars.map (·.high)) := mem_window_self hn (by rw [List.getElem?_map, hc, Option.map_some])
  have hlow : c.low ∈ window n i (bars.map (·.low)) := mem_window_self hn (by rw [List.getElem?_map, hc, Option.map_some])
  obtain ⟨high, hsome⟩ := Option.ne_none_iff_exists'.1 fun hnone => highs (hnone ▸ hhigh)
  obtain ⟨low, hsome'⟩ := Option.ne_none_iff_exists'.1 fun hnone => lows (hnone ▸ hlow)
  rw [hsome] at hhigh
  rw [hsome'] at hlow
  have hupper : x ≤ top := (hto x high hclose hsome).trans (highest.2 hhigh)
  have hlower : bottom ≤ x := (lowest.2 hlow).trans (hfrom low x hsome' hclose)
  have hspan : 0 < top - bottom := sub_pos.2 ((hlower.trans hupper).lt_of_ne' apart)
  have hshare : (x - bottom) / (top - bottom) ≤ 1 := (div_le_one hspan).2 (sub_le_sub_right hupper bottom)
  refine ⟨mul_nonneg (div_nonneg (sub_nonneg.2 hlower) hspan.le) (by norm_num), ?_⟩
  exact (mul_le_mul_of_nonneg_right hshare (by norm_num)).trans_eq (one_mul 100)

/-- A line moves to a mean of where it was and of a percentage that comes in. -/
theorem line_mem_Icc {m line x : K} (hm : 1 ≤ m) (hline : line ∈ Set.Icc (0 : K) 100) (hx : x ∈ Set.Icc (0 : K) 100) :
    (1 - 1 / m) * line + x / m ∈ Set.Icc (0 : K) 100 := by
  have hpos : 0 < m := zero_lt_one.trans_le hm
  have hshare : 1 / m ≤ 1 := (div_le_one hpos).2 hm
  have hmean := convex_Icc (0 : K) 100 hline hx (sub_nonneg.2 hshare) (one_div_nonneg.2 hpos.le) (sub_add_cancel _ _)
  rwa [smul_eq_mul, smul_eq_mul, one_div_mul_eq_div] at hmean

/-- After positions that are percentages both lines are. -/
theorem linesAfter_mem_Icc (hm1 : 1 ≤ m1) (hm2 : 1 ≤ m2) {ps : List K} (hps : ∀ p ∈ ps, p ∈ Set.Icc (0 : K) 100) :
    (linesAfter m1 m2 ps).1 ∈ Set.Icc (0 : K) 100 ∧ (linesAfter m1 m2 ps).2 ∈ Set.Icc (0 : K) 100 := by
  have hmiddle : (50 : K) ∈ Set.Icc (0 : K) 100 := ⟨by norm_num, by norm_num⟩
  rw [linesAfter]
  induction ps using List.reverseRecOn with
  | nil => exact ⟨hmiddle, hmiddle⟩
  | append_singleton ps p ih =>
    obtain ⟨hbefore, hp⟩ := List.forall_mem_append.1 hps
    obtain ⟨hk, hd⟩ := ih hbefore
    have hk' := line_mem_Icc hm1 hk (hp p List.mem_cons_self)
    rw [List.foldl_append]
    exact ⟨hk', line_mem_Icc hm2 hd hk'⟩

variable [Rooted K]

/-- The lines stay in their range. For three columns of one length, in which no close that is present lies below the low or above
the high of its bar where these are present, every period of a bar or more and weights of at least one: a bar whose close has a
position has lines K and D from 0 to 100, and any other bar has none. -/
theorem stochastic_lines_in_range (hn : 1 ≤ n) (hm1 : 1 ≤ m1) (hm2 : 1 ≤ m2) {high low close : List (Option K)}
    (hhigh : high.length = close.length) (hlow : low.length = close.length)
    (hbars : ∀ (i : Nat) (x : K), close[i]? = some (some x) →
      (∀ l, low[i]? = some (some l) → l ≤ x) ∧ ∀ h, high[i]? = some (some h) → x ≤ h) :
    ∃ bars, candles? high low close = some bars ∧
      candles? (high.map .ofOption) (low.map .ofOption) (close.map .ofOption) = some (bars.map .exact) ∧
      ∀ i < close.length,
        (∃ p ∈ Set.Icc (0 : K) 100, HasPosition n i bars p ∧ ∃ k ∈ Set.Icc (0 : K) 100, ∃ d ∈ Set.Icc (0 : K) 100,
            (kdj n (.of m1) (.of m2) (bars.map .exact))[i]? = some ⟨.of k, .of d, .of (3 * k - 2 * d)⟩) ∨
          (∀ p, ¬HasPosition n i bars p) ∧
            (kdj n (.of m1) (.of m2) (bars.map .exact))[i]? = some ⟨.missing, .missing, .missing⟩ := by
  obtain ⟨bars, hcandles, hlength, hexact⟩ := exists_candles hhigh hlow
  obtain ⟨hhighs, hlows, hcloses⟩ := columns_of_candles hhigh hlow hcandles
  have hwithin : ∀ c ∈ bars, c.ClosesWithin := by
    intro c hc
    obtain ⟨i, hi⟩ := List.getElem?_of_mem hc
    have hcolumn : ∀ f : Candle (Option K) → Option K, (bars.map f)[i]? = some (f c) := fun f => by
      rw [List.getElem?_map, hi, Option.map_some]
    have hbar := hbars i
    rw [← hhighs, ← hlows, ← hcloses, hcolumn, hcolumn, hcolumn] at hbar
    exact ⟨fun l x hl hx => (hbar x (congrArg some hx)).1 l (congrArg some hl),
      fun x h hx hh => (hbar x (congrArg some hx)).2 h (congrArg some hh)⟩
  refine ⟨bars, hcandles, hexact, fun i hi => ?_⟩
  rw [getElem?_kdj hn (zero_lt_one.trans_le hm1).ne' (zero_lt_one.trans_le hm2).ne' (hlength ▸ hi), linesAt]
  cases hp : position? n i bars with
  | none =>
    refine .inr ⟨fun p h => ?_, rfl⟩
    rw [position?_eq_some_iff.2 h] at hp
    exact absurd hp (by simp)
  | some p =>
    have hpositions : ∀ q ∈ positions n (bars.take (i + 1)), q ∈ Set.Icc (0 : K) 100 := by
      intro q hq
      obtain ⟨j, -, hj⟩ := List.mem_filterMap.1 hq
      exact (position?_eq_some_iff.1 hj).mem_Icc hn fun c hc => hwithin c (List.mem_of_mem_take hc)
    obtain ⟨hk, hd⟩ := linesAfter_mem_Icc hm1 hm2 hpositions
    have hposition := position?_eq_some_iff.1 hp
    exact .inl ⟨p, hposition.mem_Icc hn hwithin, hposition, _, hk, _, hd, rfl⟩

/-- The second of four bars is flat like the one before it, so that it has no position in a window of two bars. The lines go on
behind it and stay percentages. -/
theorem lines_after_flat_bars :
    let high : List (Option ℚ) := [some 9, some 9, some 12, some 14]
    let low : List (Option ℚ) := [some 9, some 9, some 8, some 11]
    let close : List (Option ℚ) := [some 9, some 9, some 12, some 11]
    ∃ bars, candles? high low close = some bars ∧
      (kdj 2 (.of 1) (.of 3) (bars.map .exact))[1]? = some ⟨.missing, .missing, .missing⟩ ∧
      ∃ k ∈ Set.Icc (0 : ℚ) 100, ∃ d ∈ Set.Icc (0 : ℚ) 100,
        (kdj 2 (.of 1) (.of 3) (bars.map .exact))[3]? = some ⟨.of k, .of d, .of (3 * k - 2 * d)⟩ := by
  intro high low close
  have hbars : ∀ (i : Nat) (x : ℚ), close[i]? = some (some x) →
      (∀ l, low[i]? = some (some l) → l ≤ x) ∧ ∀ h, high[i]? = some (some h) → x ≤ h := by
    intro i x hx
    rcases i with _ | _ | _ | _ | i <;> simp [high, low, close] at hx ⊢ <;> subst hx <;> norm_num
  have hhigh : high.length = close.length := rfl
  have hlow : low.length = close.length := rfl
  obtain ⟨bars, hcandles, -, hlines⟩ := stochastic_lines_in_range (by decide : 1 ≤ 2) (le_refl (1 : ℚ))
    (by norm_num : (1 : ℚ) ≤ 3) hhigh hlow hbars
  obtain rfl := Option.some.inj hcandles
  refine ⟨_, hcandles, ?_, ?_⟩
  · have hnone : position? 2 1 ((high.zip (low.zip close)).map fun (h, l, c) => ⟨h, l, c⟩) = none := by decide +kernel
    refine ((hlines 1 (by decide)).resolve_left ?_).2
    rintro ⟨p, -, hp, -⟩
    rw [position?_eq_some_iff.2 hp] at hnone
    exact absurd hnone (by simp)
  · have hsome : position? 2 3 ((high.zip (low.zip close)).map fun (h, l, c) => ⟨h, l, c⟩) = some 50 := by decide +kernel
    obtain ⟨-, -, -, hline⟩ := (hlines 3 (by decide)).resolve_right fun h => h.1 50 (position?_eq_some_iff.1 hsome)
    exact hline

end EquityScreen
