import Mathlib.Data.List.DropRight
import Mathlib.Data.List.ReduceOption

/-!
# The values up to a bar

What an indicator reads of a column at a bar are its last values there: those of the last `n` bars (`window`), of which some
may be missing, or the last `n` that are present (`latest`), which may reach further back. Where the column has a gap these are
not the same (`latest_eq_window_iff`).
-/

namespace EquityScreen

variable {α : Type} {n i : Nat}

/-- The last `n` values of a column up to a bar, or all of them where there are fewer. -/
def window {α : Type} (n i : Nat) (xs : List α) : List α := (xs.take (i + 1)).rtake n

/-- The last `n` values present in a column up to a bar, or all of them where there are fewer. -/
def latest {α : Type} (n i : Nat) (xs : List (Option α)) : List α := (xs.take (i + 1)).reduceOption.rtake n

theorem length_rtake (n : Nat) (xs : List α) : (xs.rtake n).length = min xs.length n := by
  rw [List.rtake, List.length_drop]
  omega

theorem rtake_of_length_le {xs : List α} (h : xs.length ≤ n) : xs.rtake n = xs := by
  rw [List.rtake, Nat.sub_eq_zero_of_le h, List.drop_zero]

/-- The end of a column with one more value. -/
theorem rtake_map_concat {α β : Type} (f : α → β) (xs : List α) (x : α) :
    ((xs.rtake n).map f ++ [f x]).rtake n = ((xs ++ [x]).rtake n).map f := by
  cases n with
  | zero => simp
  | succ n =>
    rw [List.rtake_concat_succ, List.rtake_concat_succ, List.map_append, List.rtake, List.rtake, List.rtake, List.length_map,
      List.length_drop, ← List.map_drop, List.drop_drop, List.map_singleton]
    congr 3
    omega

/-- A window reaches back from its bar, and not beyond it. -/
theorem window_take {m : Nat} (hi : i < m) (xs : List α) : window n i (xs.take m) = window n i xs := by
  rw [window, window, List.take_take, Nat.min_eq_left hi]

theorem window_map {β : Type} (f : α → β) (xs : List α) : window n i (xs.map f) = (window n i xs).map f := by
  rw [window, window, ← List.map_take, List.rtake, List.rtake, List.length_map, List.map_drop]

theorem length_window {xs : List α} (hi : i < xs.length) : (window n i xs).length = min (i + 1) n := by
  rw [window, length_rtake, List.length_take_of_le hi]

/-- The window of `n` values at a bar has those of the bar and of the `n - 1` bars before it. -/
theorem mem_window_iff {xs : List α} {x : α} (hi : i < xs.length) :
    x ∈ window n i xs ↔ ∃ j ≤ i, i < j + n ∧ xs[j]? = some x := by
  rw [window, List.rtake, List.length_take_of_le hi, List.mem_iff_getElem?]
  simp only [List.getElem?_drop]
  constructor
  · rintro ⟨d, hd⟩
    obtain ⟨hlt, -⟩ := List.getElem?_eq_some_iff.1 hd
    rw [List.length_take_of_le hi] at hlt
    rw [List.getElem?_take_of_lt hlt] at hd
    exact ⟨_, Nat.lt_succ_iff.1 hlt, by omega, hd⟩
  · rintro ⟨j, hj, hreach, hx⟩
    refine ⟨j - (i + 1 - n), ?_⟩
    rw [Nat.add_sub_of_le (by omega), List.getElem?_take_of_lt (Nat.lt_succ_of_le hj), hx]

/-- The value of a bar is in its window. -/
theorem mem_window_self (hn : 0 < n) {xs : List α} {x : α} (hx : xs[i]? = some x) : x ∈ window n i xs := by
  obtain ⟨hi, -⟩ := List.getElem?_eq_some_iff.1 hx
  exact (mem_window_iff hi).2 ⟨i, le_rfl, by omega, hx⟩

theorem reduceOption_concat (xs : List (Option α)) (x : Option α) :
    (xs ++ [x]).reduceOption = xs.reduceOption ++ x.toList := by
  rw [← List.concat_eq_append, List.reduceOption_concat]

theorem reduceOption_map_some (xs : List α) : (xs.map some).reduceOption = xs := by
  rw [List.reduceOption, List.filterMap_map]
  exact List.filterMap_some

/-- Where no value is missing the latest ones are those of the window. -/
theorem latest_map_some (xs : List α) : latest n i (xs.map some) = window n i xs := by
  rw [latest, ← List.map_take, reduceOption_map_some, window]

theorem length_latest (xs : List (Option α)) : (latest n i xs).length = min (xs.take (i + 1)).reduceOption.length n :=
  length_rtake n _

/-- Where a bar has a value, this one is the latest. -/
theorem length_latest_pos (hn : 0 < n) {xs : List (Option α)} {x : α} (hx : xs[i]? = some (some x)) :
    0 < (latest n i xs).length := by
  have hmem : x ∈ (xs.take (i + 1)).reduceOption := by
    rw [List.reduceOption_mem_iff]
    exact List.mem_of_getElem? (by rw [List.getElem?_take_of_lt (Nat.lt_succ_self i), hx])
  have hpos := List.length_pos_of_mem hmem
  rw [length_latest]
  omega

/-- The latest values are the ones present in the window exactly where the window has no gap, or no value is present before it. -/
theorem latest_eq_window_iff {xs : List (Option α)} (hi : i < xs.length) :
    latest n i xs = (window n i xs).reduceOption ↔
      none ∉ window n i xs ∨ (xs.take (i + 1 - n)).reduceOption = [] := by
  have hlength := length_window (n := n) hi
  have hcount := List.reduceOption_length_le (window n i xs)
  have hsplit : (xs.take (i + 1)).reduceOption = (xs.take (i + 1 - n)).reduceOption ++ (window n i xs).reduceOption := by
    rw [← List.reduceOption_append, window, List.rtake, List.length_take_of_le hi]
    conv_lhs => rw [← List.take_append_drop (i + 1 - n) (xs.take (i + 1)), List.take_take, Nat.min_eq_left (by omega)]
  have hgap : none ∉ window n i xs ↔ (window n i xs).reduceOption.length = (window n i xs).length := by
    rw [List.reduceOption_length_eq_iff]
    exact ⟨fun h x hx => Option.isSome_iff_ne_none.2 fun hnone => h (hnone ▸ hx),
      fun h hmem => absurd (h none hmem) Bool.false_ne_true⟩
  rw [latest, hsplit, hgap]
  constructor
  · intro h
    have hlast := congrArg List.length h
    rw [length_rtake, List.length_append] at hlast
    by_cases hbefore : (xs.take (i + 1 - n)).reduceOption = []
    · exact .inr hbefore
    · have hpos := List.length_pos_of_ne_nil hbefore
      exact .inl (by omega)
  · rintro (hwhole | hbefore)
    · rcases Nat.lt_or_ge i n with hfew | hfull
      · rw [Nat.sub_eq_zero_of_le hfew, List.take_zero, List.reduceOption_nil, List.nil_append]
        exact rtake_of_length_le (by omega)
      · rw [List.rtake, List.length_append, show (window n i xs).reduceOption.length = n by omega, Nat.add_sub_cancel,
          List.drop_left]
    · rw [hbefore, List.nil_append]
      exact rtake_of_length_le (by omega)

end EquityScreen
