import Mathlib.Order.Bounds.Basic
import EquityScreen.Indicator.Formula
import EquityScreen.Proofs.Lemmas.Exact
import EquityScreen.Proofs.Lemmas.Rings
import EquityScreen.Proofs.Lemmas.Windows

/-!
# The stochastic lines bar by bar

At a bar with a full window of highs and lows, none of them missing, the close has a position between the lowest low and the
highest high (`HasPosition`), unless these are equal or the close is missing. The lines K and D are what the recurrence makes
of the positions up to a bar (`linesAfter`); a bar without a position has no value and adds nothing to it. Over exact numbers
the one pass over the bars gives these lines (`stochastic_lines_bar_by_bar`).

What the pass carries from bar to bar is said by `KdjState.Follows`. Its rings take missing highs and lows in, and may then keep
one as their best value; but by the time the bars without a gap are as many as the rings have slots, no slot is left that was
written before them.
-/

namespace EquityScreen

open Quantity

variable {K : Type}

/-! ## Bars and windows -/

/-- A bar over exact numbers. -/
def Candle.exact (c : Candle (Option K)) : Candle (Exact K) := ⟨.ofOption c.high, .ofOption c.low, .ofOption c.close⟩

/-- Three columns of one length are bars, and with missing values for what they lack they are the bars over exact numbers. -/
theorem exists_candles {high low close : List (Option K)} (hhigh : high.length = close.length)
    (hlow : low.length = close.length) :
    ∃ bars, candles? high low close = some bars ∧ bars.length = close.length ∧
      candles? (high.map .ofOption) (low.map .ofOption) (close.map .ofOption) = some (bars.map .exact) := by
  refine ⟨_, if_pos (by simp [hhigh, hlow]), ?_, ?_⟩
  · simp [hhigh, hlow]
  · rw [candles?, if_pos (by simp [hhigh, hlow]), List.zip_map, List.zip_map, List.map_map, List.map_map]
    rfl

/-- The last bars have both a high and a low, and are so many in a row. -/
def Unbroken (bars : List (Candle (Option K))) (unbroken : Nat) : Prop :=
  ∀ m, m ≤ unbroken ↔ m ≤ bars.length ∧ ∀ c ∈ bars.rtake m, c.high ≠ none ∧ c.low ≠ none

section Windows

variable {n : Nat} {bars : List (Candle (Option K))} {unbroken : Nat}

/-- At the last bar the window of a column is its end. -/
theorem window_concat (f : Candle (Option K) → Option K) (bars : List (Candle (Option K))) (c : Candle (Option K)) :
    window n bars.length ((bars ++ [c]).map f) = ((bars ++ [c]).rtake n).map f := by
  rw [window, List.take_of_length_le (by simp), List.rtake, List.rtake, List.map_drop, List.length_map]

/-- The row of bars that is not broken has `n` of them when the windows of the last bar are full and have no gap. -/
theorem Unbroken.le_iff {c : Candle (Option K)} (h : Unbroken (bars ++ [c]) unbroken) :
    n ≤ unbroken ↔ n ≤ bars.length + 1 ∧ none ∉ window n bars.length ((bars ++ [c]).map (·.high)) ∧
      none ∉ window n bars.length ((bars ++ [c]).map (·.low)) := by
  rw [h n, List.length_append, List.length_singleton, window_concat, window_concat]
  refine and_congr_right fun _ => ?_
  simp only [List.mem_map, not_exists, not_and, forall_and]

end Windows

section Extremes

variable [LinearOrder K] {xs : List (Option K)} {x : K}

theorem max?_reduceOption_eq_some_iff : xs.reduceOption.max? = some x ↔ IsGreatest {y | some y ∈ xs} x := by
  rw [List.max?_eq_some_iff]
  simp only [List.reduceOption_mem_iff]
  rfl

theorem min?_reduceOption_eq_some_iff : xs.reduceOption.min? = some x ↔ IsLeast {y | some y ∈ xs} x := by
  rw [List.min?_eq_some_iff]
  simp only [List.reduceOption_mem_iff]
  rfl

end Extremes

/-! ## Positions and lines -/

variable [Field K] [LinearOrder K]

/-- The close of a bar has a position, in percent, between the lowest low and the highest high of the last `n` bars: there are as
many, none of them lacks its high or its low, the bar has a close, and the highest high is not the lowest low. -/
inductive HasPosition (n i : Nat) (bars : List (Candle (Option K))) : K → Prop where
  | intro {hh ll c : K} (full : n ≤ i + 1) (highs : none ∉ window n i (bars.map (·.high)))
      (lows : none ∉ window n i (bars.map (·.low))) (closed : (bars.map (·.close))[i]? = some (some c))
      (highest : IsGreatest {x | some x ∈ window n i (bars.map (·.high))} hh)
      (lowest : IsLeast {x | some x ∈ window n i (bars.map (·.low))} ll) (apart : hh ≠ ll) :
      HasPosition n i bars ((c - ll) / (hh - ll) * 100)

/-- The position of the close of a bar, if it has one. -/
def position? (n i : Nat) (bars : List (Candle (Option K))) : Option K :=
  let highs := window n i (bars.map (·.high))
  let lows := window n i (bars.map (·.low))
  if n ≤ i + 1 ∧ none ∉ highs ∧ none ∉ lows then do
    let hh ← highs.reduceOption.max?
    let ll ← lows.reduceOption.min?
    let c ← (bars.map (·.close))[i]?.join
    if hh = ll then none else some ((c - ll) / (hh - ll) * 100)
  else none

/-- The positions of the closes of some bars, of those that have one. -/
def positions (n : Nat) (bars : List (Candle (Option K))) : List K :=
  (List.range bars.length).filterMap fun i => position? n i bars

/-- The lines K and D with one more position. -/
def nextLines (m1 m2 : K) (lines : K × K) (position : K) : K × K :=
  let k := (1 - 1 / m1) * lines.1 + position / m1
  (k, (1 - 1 / m2) * lines.2 + k / m2)

/-- The lines K and D after some positions. They start in the middle. -/
def linesAfter (m1 m2 : K) (positions : List K) : K × K := positions.foldl (nextLines m1 m2) (50, 50)

/-- The lines of a bar: none where it has no position, and else what the positions up to it make of them. -/
def linesAt (n : Nat) (m1 m2 : K) (i : Nat) (bars : List (Candle (Option K))) : Kdj (Exact K) :=
  match position? n i bars with
  | none => ⟨.missing, .missing, .missing⟩
  | some _ =>
    let lines := linesAfter m1 m2 (positions n (bars.take (i + 1)))
    ⟨.of lines.1, .of lines.2, .of (3 * lines.1 - 2 * lines.2)⟩

section Positions

variable {n i m : Nat} {bars : List (Candle (Option K))}

/-- The position is found where there is one. -/
theorem position?_eq_some_iff {p : K} : position? n i bars = some p ↔ HasPosition n i bars p := by
  constructor
  · intro h
    unfold position? at h
    dsimp only at h
    split at h
    · rename_i hwindow
      obtain ⟨hfull, hhighs, hlows⟩ := hwindow
      obtain ⟨hh, hhh, h⟩ := Option.bind_eq_some_iff.1 h
      obtain ⟨ll, hll, h⟩ := Option.bind_eq_some_iff.1 h
      obtain ⟨c, hc, h⟩ := Option.bind_eq_some_iff.1 h
      split at h
      · exact nomatch h
      · rename_i hapart
        obtain rfl := Option.some.inj h
        exact .intro hfull hhighs hlows (Option.join_eq_some_iff.1 hc) (max?_reduceOption_eq_some_iff.1 hhh)
          (min?_reduceOption_eq_some_iff.1 hll) hapart
    · exact nomatch h
  · rintro ⟨hfull, hhighs, hlows, hc, hhh, hll, hapart⟩
    rw [position?, if_pos ⟨hfull, hhighs, hlows⟩, max?_reduceOption_eq_some_iff.2 hhh, min?_reduceOption_eq_some_iff.2 hll, hc]
    exact if_neg hapart

/-- A position is the same whatever bars come after it. -/
theorem position?_take (hi : i < m) : position? n i (bars.take m) = position? n i bars := by
  simp only [position?, List.map_take, window_take hi, List.getElem?_take_of_lt hi]

/-- The lines of a bar are the same whatever bars come after it. -/
theorem linesAt_take {m1 m2 : K} (hi : i < m) :
    linesAt n m1 m2 i (bars.take m) = linesAt n m1 m2 i bars := by
  rw [linesAt, linesAt, position?_take hi, List.take_take, Nat.min_eq_left hi]

/-- One bar more adds its position, if it has one, to those of the bars before. -/
theorem positions_concat (n : Nat) (bars : List (Candle (Option K))) (c : Candle (Option K)) :
    positions n (bars ++ [c]) = positions n bars ++ (position? n bars.length (bars ++ [c])).toList := by
  have hbefore : (List.range bars.length).filterMap (fun i => position? n i (bars ++ [c])) = positions n bars := by
    refine List.filterMap_congr fun i hi => ?_
    rw [← position?_take (List.mem_range.1 hi), List.take_left]
  rw [positions, List.length_append, List.length_singleton, List.range_succ, List.filterMap_append, hbefore]
  rfl

end Positions

/-! ## One bar of the pass -/

section Step

variable {α : Type} [Quantity α]

/-- How many bars in a row have both a high and a low, with one bar more. -/
def KdjState.row (s : KdjState α) (c : Candle α) : Nat := if isMissing c.high || isMissing c.low then 0 else s.unbroken + 1

/-- The position that the pass computes at a bar, if there are `n` bars in a row. -/
def KdjState.position (n : Nat) (s : KdjState α) (c : Candle α) : α :=
  if n ≤ s.row c then
    stochastic c.close (s.highest.feed (fun x y => below y x) c.high).value (s.lowest.feed below c.low).value
  else missing

variable {n : Nat} {m1 m2 : α} {s : KdjState α} {c : Candle α}

/-- Where the position is not finite the bar has no value and leaves the lines as they were. -/
theorem kdjStep_of_not_finite (h : isFinite (s.position n c) = false) : kdjStep n m1 m2 s c =
    (⟨s.highest.feed (fun x y => below y x) c.high, s.lowest.feed below c.low, s.row c, s.k, s.d⟩,
      ⟨missing, missing, missing⟩) :=
  if_neg (Bool.eq_false_iff.1 h)

/-- Where it is finite it takes the lines on, and they are the values of the bar. -/
theorem kdjStep_of_finite {k d : α} (h : isFinite (s.position n c) = true)
    (hk : (one - one / m1) * s.k + s.position n c / m1 = k) (hd : (one - one / m2) * s.d + k / m2 = d) :
    kdjStep n m1 m2 s c = (⟨s.highest.feed (fun x y => below y x) c.high, s.lowest.feed below c.low, s.row c, k, d⟩,
      ⟨k, d, count 3 * k - count 2 * d⟩) := by
  subst hk hd
  exact if_pos h

end Step

/-! ## The pass over exact numbers -/

variable [Rooted K]

/-- Exact numbers are ranked from the greatest down. -/
theorem ranks_greatest : RunningBest.Ranks (fun x y : Exact K => below y x) bottom where
  irrefl := Exact.below_irrefl
  trans := fun _ _ _ hxy hyz => Exact.below_trans hyz hxy
  number
    | .of _, _ => rfl
  missing := fun x _ hy => (Exact.below_missing hy x).2

/-- Exact numbers are ranked from the least up. -/
theorem ranks_least : RunningBest.Ranks (below (α := Exact K)) top where
  irrefl := Exact.below_irrefl
  trans := fun _ _ _ => Exact.below_trans
  number
    | .of _, _ => rfl
  missing := fun x _ hy => (Exact.below_missing hy x).1

/-- The best of some numbers is one of them that none beats. -/
theorem exists_best {beats : Exact K → Exact K → Bool} {filling : Exact K} {n : Nat} {b : RunningBest (Exact K)}
    {xs : List (Option K)} (h : b.Tracks beats filling n (xs.map .ofOption)) (hne : xs ≠ []) (hfull : none ∉ xs) :
    ∃ x, b.value = .of x ∧ some x ∈ xs ∧ ∀ y, some y ∈ xs → beats (.of y) (.of x) = false := by
  have hnumbers : ∀ y ∈ xs.map Exact.ofOption, isMissing y = false := by
    intro y hy
    obtain ⟨o, ho, rfl⟩ := List.mem_map.1 hy
    cases o with
    | none => exact absurd ho hfull
    | some x => rfl
  obtain ⟨hmem, hbest⟩ := h.value_mem (mt List.map_eq_nil_iff.1 hne) hnumbers
  obtain ⟨o, ho, hvalue⟩ := List.mem_map.1 hmem
  cases o with
  | none => exact absurd ho hfull
  | some x =>
    refine ⟨x, hvalue.symm, ho, fun y hy => ?_⟩
    have hy := hbest _ (List.mem_map_of_mem hy)
    rwa [← hvalue] at hy

/-- The close between two numbers is a number where it is present and they differ. -/
theorem stochastic_of (close : Option K) (hh ll : K) {x : Exact K}
    (h : x = stochastic (.ofOption close) (.of hh) (.of ll)) :
    match close.bind fun c => if hh = ll then none else some ((c - ll) / (hh - ll) * 100) with
    | none => isFinite x = false
    | some p => x = .of p := by
  have hhundred : (hundred : Exact K) = .of 100 := congrArg Exact.of Nat.cast_ofNat
  cases close with
  | none =>
    rw [h]
    rfl
  | some c =>
    rw [stochastic, hhundred, Exact.ofOption.eq_def, Exact.of_sub_of, Exact.of_sub_of] at h
    rw [Option.bind_some, h]
    by_cases hflat : hh = ll
    · rw [if_pos hflat, hflat, sub_self, Exact.of_div_zero]
      exact Exact.isFinite_mul (Exact.isFinite_bound _) _
    · rw [if_neg hflat, Exact.of_div_of (sub_ne_zero.2 hflat)]
      rfl

/-- The recurrence of a line over numbers. -/
theorem exact_line {m : K} (hm : m ≠ 0) (line x : K) :
    (one - one / Exact.of m) * Exact.of line + Exact.of x / Exact.of m = .of ((1 - 1 / m) * line + x / m) := by
  have hone : (one : Exact K) = .of 1 := congrArg Exact.of Nat.cast_one
  rw [hone, Exact.of_div_of hm, Exact.of_div_of hm, Exact.of_sub_of, Exact.of_mul_of, Exact.of_add_of]

section LastBar

variable {n : Nat} {bars : List (Candle (Option K))} {c : Candle (Option K)} {unbroken : Nat}
  {highest lowest : RunningBest (Exact K)}

/-- A bar that lacks its high or its low ends the row, and any other makes it longer. -/
theorem Unbroken.concat (h : Unbroken bars unbroken) (c : Candle (Option K)) :
    Unbroken (bars ++ [c]) (if isMissing c.exact.high || isMissing c.exact.low then 0 else unbroken + 1) := by
  have hgap : (isMissing c.exact.high || isMissing c.exact.low) = true ↔ ¬(c.high ≠ none ∧ c.low ≠ none) := by
    simp only [Candle.exact, Exact.isMissing_ofOption, Bool.or_eq_true, Option.isNone_iff_eq_none]
    tauto
  intro m
  cases m with
  | zero => simp
  | succ m =>
    rw [List.rtake_concat_succ, List.forall_mem_append, List.forall_mem_singleton, List.length_append, List.length_singleton,
      Nat.add_le_add_iff_right]
    split
    · rename_i hmissing
      exact iff_of_false (Nat.not_succ_le_zero m) fun hall => hgap.1 hmissing hall.2.2
    · rename_i hpresent
      rw [Nat.add_le_add_iff_right, h m, ← and_assoc, and_iff_left (not_not.1 (mt hgap.2 hpresent))]

/-- The close of the last bar between the best high and the best low is its position, and is not finite where it has none. -/
theorem stochastic_spec (hn : 0 < n)
    (hhighest : highest.Tracks (fun x y => below y x) bottom n (((bars ++ [c]).rtake n).map fun c => .ofOption c.high))
    (hlowest : lowest.Tracks below top n (((bars ++ [c]).rtake n).map fun c => .ofOption c.low))
    (hunbroken : Unbroken (bars ++ [c]) unbroken) {x : Exact K}
    (hx : x = if n ≤ unbroken then stochastic c.exact.close highest.value lowest.value else missing) :
    match position? n bars.length (bars ++ [c]) with
    | none => isFinite x = false
    | some p => x = .of p := by
  by_cases hrow : n ≤ unbroken
  · obtain ⟨hfull, hhighs, hlows⟩ := hunbroken.le_iff.1 hrow
    have hne : ∀ f : Candle (Option K) → Option K, window n bars.length ((bars ++ [c]).map f) ≠ [] := by
      intro f hnil
      have hlength := congrArg List.length hnil
      rw [window_concat, List.length_map, List.rtake, List.length_drop, List.length_append, List.length_singleton,
        List.length_nil] at hlength
      omega
    have hmap : ∀ f : Candle (Option K) → Option K, ((bars ++ [c]).rtake n).map (fun c => Exact.ofOption (f c)) =
        (window n bars.length ((bars ++ [c]).map f)).map Exact.ofOption := by
      intro f
      rw [window_concat, List.map_map]
      rfl
    rw [hmap] at hhighest hlowest
    obtain ⟨hh, hhighest, hhmem, hhbest⟩ := exists_best hhighest (hne _) hhighs
    obtain ⟨ll, hlowest, hlmem, hlbest⟩ := exists_best hlowest (hne _) hlows
    have hhh : IsGreatest {y | some y ∈ window n bars.length ((bars ++ [c]).map (·.high))} hh :=
      ⟨hhmem, fun y hy => not_lt.1 (of_decide_eq_false (hhbest y hy))⟩
    have hll : IsLeast {y | some y ∈ window n bars.length ((bars ++ [c]).map (·.low))} ll :=
      ⟨hlmem, fun y hy => not_lt.1 (of_decide_eq_false (hlbest y hy))⟩
    have hlast : ((bars ++ [c]).map (·.close))[bars.length]?.join = c.close := by simp
    rw [if_pos hrow, hhighest, hlowest] at hx
    rw [position?, if_pos ⟨hfull, hhighs, hlows⟩, max?_reduceOption_eq_some_iff.2 hhh, min?_reduceOption_eq_some_iff.2 hll,
      hlast]
    exact stochastic_of c.close hh ll hx
  · rw [position?, if_neg (mt hunbroken.le_iff.2 hrow), hx, if_neg hrow]
    rfl

end LastBar

/-- What the pass carries after some bars: the last `n` highs and lows, how many of the last bars have both, and the lines. -/
structure KdjState.Follows (n : Nat) (m1 m2 : K) (bars : List (Candle (Option K))) (s : KdjState (Exact K)) : Prop where
  highest : s.highest.Tracks (fun x y => below y x) bottom n ((bars.rtake n).map fun c => .ofOption c.high)
  lowest : s.lowest.Tracks below top n ((bars.rtake n).map fun c => .ofOption c.low)
  unbroken : Unbroken bars s.unbroken
  k : s.k = .of (linesAfter m1 m2 (positions n bars)).1
  d : s.d = .of (linesAfter m1 m2 (positions n bars)).2

namespace KdjState

variable {n : Nat} {m1 m2 : K}

/-- Before the first bar. -/
theorem follows_new (hn : 0 < n) (m1 m2 : K) : Follows n m1 m2 [] (.new n) where
  highest := by
    rw [List.rtake_nil, List.map_nil]
    exact RunningBest.tracks_new _ _ hn
  lowest := by
    rw [List.rtake_nil, List.map_nil]
    exact RunningBest.tracks_new _ _ hn
  unbroken := by
    intro m
    rw [List.rtake_nil, List.length_nil]
    exact (and_iff_left nofun).symm
  k := congrArg Exact.of Nat.cast_ofNat
  d := congrArg Exact.of Nat.cast_ofNat

/-- One bar more: its values are its lines, and what is carried on follows the bars with it. -/
theorem Follows.step {bars : List (Candle (Option K))} {s : KdjState (Exact K)} (h : s.Follows n m1 m2 bars) (hn : 0 < n)
    (hm1 : m1 ≠ 0) (hm2 : m2 ≠ 0) (c : Candle (Option K)) :
    (kdjStep n (.of m1) (.of m2) s c.exact).1.Follows n m1 m2 (bars ++ [c]) ∧
      (kdjStep n (.of m1) (.of m2) s c.exact).2 = linesAt n m1 m2 bars.length (bars ++ [c]) := by
  have hhigh := h.highest.feed ranks_greatest (Exact.plain_ofOption c.high)
  have hlow := h.lowest.feed ranks_least (Exact.plain_ofOption c.low)
  have hunbroken := h.unbroken.concat c
  rw [rtake_map_concat fun c : Candle (Option K) => Exact.ofOption c.high] at hhigh
  rw [rtake_map_concat fun c : Candle (Option K) => Exact.ofOption c.low] at hlow
  have hposition : match position? n bars.length (bars ++ [c]) with
    | none => isFinite (s.position n c.exact) = false
    | some p => s.position n c.exact = .of p := stochastic_spec hn hhigh hlow hunbroken rfl
  have hpositions := positions_concat n bars c
  have hall : (bars ++ [c]).take (bars.length + 1) = bars ++ [c] := List.take_of_length_le (by simp)
  rw [linesAt, hall]
  cases hp : position? n bars.length (bars ++ [c]) with
  | none =>
    rw [hp] at hposition hpositions
    rw [Option.toList_none, List.append_nil] at hpositions
    rw [kdjStep_of_not_finite hposition]
    exact ⟨⟨hhigh, hlow, hunbroken, hpositions ▸ h.k, hpositions ▸ h.d⟩, rfl⟩
  | some p =>
    rw [hp] at hposition hpositions
    have hlines : linesAfter m1 m2 (positions n (bars ++ [c])) = nextLines m1 m2 (linesAfter m1 m2 (positions n bars)) p := by
      rw [hpositions, linesAfter, List.foldl_append]
      rfl
    have hk : (one - one / Exact.of m1) * s.k + s.position n c.exact / Exact.of m1 =
        .of (linesAfter m1 m2 (positions n (bars ++ [c]))).1 := by
      rw [h.k, hposition, exact_line hm1, hlines]
      rfl
    have hd : (one - one / Exact.of m2) * s.d + .of (linesAfter m1 m2 (positions n (bars ++ [c]))).1 / Exact.of m2 =
        .of (linesAfter m1 m2 (positions n (bars ++ [c]))).2 := by
      rw [h.d, exact_line hm2, hlines]
      rfl
    rw [kdjStep_of_finite (by rw [hposition]; rfl) hk hd]
    refine ⟨⟨hhigh, hlow, hunbroken, rfl, rfl⟩, ?_⟩
    have hthree : (count 3 : Exact K) = .of 3 := congrArg Exact.of Nat.cast_ofNat
    have htwo : (count 2 : Exact K) = .of 2 := congrArg Exact.of Nat.cast_ofNat
    rw [hthree, htwo, Exact.of_mul_of, Exact.of_mul_of, Exact.of_sub_of]

/-- After any bars what the pass carries follows them. -/
theorem follows_scanState (hn : 0 < n) (hm1 : m1 ≠ 0) (hm2 : m2 ≠ 0) (bars : List (Candle (Option K))) :
    (scanState (kdjStep n (.of m1) (.of m2)) (.new n) (bars.map .exact)).Follows n m1 m2 bars := by
  induction bars using List.reverseRecOn with
  | nil => exact follows_new hn m1 m2
  | append_singleton bars c ih =>
    rw [List.map_append, List.map_singleton, scanState_concat]
    exact (ih.step hn hm1 hm2 c).1

end KdjState

/-- The pass gives each bar its lines. -/
theorem getElem?_kdj {n : Nat} {m1 m2 : K} (hn : 0 < n) (hm1 : m1 ≠ 0) (hm2 : m2 ≠ 0) {bars : List (Candle (Option K))} {i : Nat}
    (hi : i < bars.length) : (kdj n (.of m1) (.of m2) (bars.map .exact))[i]? = some (linesAt n m1 m2 i bars) := by
  have hlength : (bars.take i).length = i := List.length_take_of_le hi.le
  have hstep := ((KdjState.follows_scanState hn hm1 hm2 (bars.take i)).step hn hm1 hm2 bars[i]).2
  rw [← List.take_succ_eq_append_getElem hi, hlength, linesAt_take (Nat.lt_succ_self i)] at hstep
  rw [kdj, getElem?_scan _ _ (by rwa [List.length_map]), ← List.map_take, List.getElem_map, hstep]

/-- The stochastic lines are what their definition says, bar by bar. For three columns of one length, which may lack numbers, every
period of a bar or more and weights above zero, a bar has no lines where its close has no position, and else the lines that the
recurrence has after the positions of the bars up to it, in their order. A bar without a position leaves the recurrence as it
was. -/
theorem stochastic_lines_bar_by_bar {n : Nat} (hn : 1 ≤ n) {m1 m2 : K} (hm1 : 0 < m1) (hm2 : 0 < m2)
    {high low close : List (Option K)} (hhigh : high.length = close.length) (hlow : low.length = close.length) :
    ∃ bars, candles? high low close = some bars ∧
      candles? (high.map .ofOption) (low.map .ofOption) (close.map .ofOption) = some (bars.map .exact) ∧
      (kdj n (.of m1) (.of m2) (bars.map .exact)).length = close.length ∧
      ∀ i < close.length, (∀ p, position? n i bars = some p ↔ HasPosition n i bars p) ∧
        (kdj n (.of m1) (.of m2) (bars.map .exact))[i]? = some (linesAt n m1 m2 i bars) := by
  obtain ⟨bars, hbars, hlength, hexact⟩ := exists_candles hhigh hlow
  refine ⟨bars, hbars, hexact, ?_, fun i hi => ⟨fun p => position?_eq_some_iff, ?_⟩⟩
  · rw [kdj, length_scan, List.length_map, hlength]
  · exact getElem?_kdj hn hm1.ne' hm2.ne' (hlength ▸ hi)

/-- Of four bars the second lacks its high. With windows of two bars only the last one has lines: its close lies at three quarters
between 10 and 14. The window of the bar before it has the gap. -/
theorem lines_after_gap :
    let high : List (Option ℚ) := [some 10, none, some 12, some 14]
    let low : List (Option ℚ) := [some 8, some 9, some 10, some 11]
    let close : List (Option ℚ) := [some 9, some 10, some 11, some 13]
    ∃ bars : List (Candle (Exact ℚ)),
      candles? (high.map .ofOption) (low.map .ofOption) (close.map .ofOption) = some bars ∧
      (kdj 2 (.of 3) (.of 3) bars)[2]? = some ⟨.missing, .missing, .missing⟩ ∧
      (kdj 2 (.of 3) (.of 3) bars)[3]? = some ⟨.of (175 / 3), .of (475 / 9), .of (625 / 9)⟩ := by
  intro high low close
  have hhigh : high.length = close.length := rfl
  have hlow : low.length = close.length := rfl
  obtain ⟨bars, hbars, hexact, -, hlines⟩ :=
    stochastic_lines_bar_by_bar (by decide : 1 ≤ 2) (by decide +kernel : (0 : ℚ) < 3) (by decide +kernel : (0 : ℚ) < 3) hhigh hlow
  obtain rfl := Option.some.inj hbars
  refine ⟨_, hexact, ?_, ?_⟩
  · have hnone : position? 2 2 ((high.zip (low.zip close)).map fun (h, l, c) => ⟨h, l, c⟩) = none := by decide +kernel
    rw [(hlines 2 (by decide)).2, linesAt, hnone]
  · have hsome : position? 2 3 ((high.zip (low.zip close)).map fun (h, l, c) => ⟨h, l, c⟩) = some 75 := by decide +kernel
    have hafter : linesAfter 3 3 (positions 2 (((high.zip (low.zip close)).map fun (h, l, c) => ⟨h, l, c⟩).take 4)) =
        (175 / 3, 475 / 9) := by
      decide +kernel
    have hthird : (3 * (175 / 3) - 2 * (475 / 9) : ℚ) = 625 / 9 := by decide +kernel
    rw [(hlines 3 (by decide)).2, linesAt, hsome]
    dsimp only
    rw [hafter, hthird]

end EquityScreen
