import Mathlib
import EquityScreen.Result.Order

/-!
# Pages of a list

A page is a run of consecutive rows. The pages of one limit, each from where the one before it ended, are the rows themselves
when they are put end to end, and the first that is empty comes after the last row (`pages_end_to_end`).
-/

namespace EquityScreen
namespace Page

variable {α β : Type}

/-- The page of a request has 1 to 500 rows, and its offset is a number of 64 bits with a sign. -/
theorem ofRequest_bounds (limit : Option Nat) (offset : Nat) :
    1 ≤ (ofRequest limit offset).limit ∧ (ofRequest limit offset).limit ≤ 500 ∧ (ofRequest limit offset).offset < 2 ^ 63 := by
  have hlimit : greatestLimit = 500 := rfl
  have hoffset : greatestOffset = 2 ^ 63 - 1 := rfl
  simp only [ofRequest]
  omega

/-- The page of changed rows is the page of the rows, changed. -/
theorem map_cut (p : Page) (f : α → β) (rows : List α) : (p.cut rows).map f = p.cut (rows.map f) := by
  rw [cut, cut, List.map_take, List.map_drop]

theorem length_cut (p : Page) (rows : List α) : (p.cut rows).length = min p.limit (rows.length - p.offset) := by
  simp [cut]

/-- A page with room for a row is empty when it begins behind the last one. -/
theorem cut_eq_nil_iff {p : Page} (hlimit : 0 < p.limit) (rows : List α) : p.cut rows = [] ↔ rows.length ≤ p.offset := by
  rw [← List.length_eq_zero_iff, length_cut]
  omega

theorem cut_sublist (p : Page) (rows : List α) : (p.cut rows).Sublist rows :=
  (List.take_sublist _ _).trans (List.drop_sublist _ _)

/-- A greatest offset that no list is longer than cuts no other page. -/
theorem cut_of_min_offset (limit offset : Nat) {greatest : Nat} {rows : List α} (h : rows.length ≤ greatest) :
    cut ⟨limit, min offset greatest⟩ rows = cut ⟨limit, offset⟩ rows := by
  have hdrop : rows.drop (min offset greatest) = rows.drop offset := by
    by_cases hoffset : offset ≤ greatest
    · rw [Nat.min_eq_left hoffset]
    · rw [Nat.min_eq_right (by omega), List.drop_eq_nil_of_le h, List.drop_eq_nil_of_le (by omega)]
  rw [cut, cut, hdrop]

/-! ## Page after page -/

/-- The first pages, put end to end, are the first rows. -/
theorem flatMap_cut_range (limit n : Nat) (rows : List α) :
    ((List.range n).flatMap fun k => cut ⟨limit, k * limit⟩ rows) = rows.take (n * limit) := by
  induction n with
  | zero => simp
  | succ n ih =>
    rw [List.range_succ, List.flatMap_append, ih, Nat.succ_mul, List.take_add]
    simp [cut]

/-- As many pages as the rows fill: each of them begins before the end, and they reach it. -/
theorem exists_count_of_pages {limit : Nat} (hlimit : 0 < limit) (length : Nat) :
    ∃ n, (∀ k < n, k * limit < length) ∧ length ≤ n * limit := by
  induction length with
  | zero => exact ⟨0, by simp, Nat.zero_le _⟩
  | succ length ih =>
    obtain ⟨n, hbegin, hreach⟩ := ih
    by_cases hfull : n * limit = length
    · refine ⟨n + 1, fun k hk => ?_, by rw [Nat.succ_mul]; omega⟩
      have hle : k * limit ≤ n * limit := Nat.mul_le_mul_right _ (Nat.le_of_lt_succ hk)
      omega
    · exact ⟨n, fun k hk => Nat.lt_succ_of_lt (hbegin k hk), by omega⟩

/-- Page after page until one is empty, every row is read once and in its place. -/
theorem pages_end_to_end {limit : Nat} (hlimit : 0 < limit) (rows : List α) :
    ∃ n, (∀ k < n, cut ⟨limit, k * limit⟩ rows ≠ []) ∧ cut ⟨limit, n * limit⟩ rows = [] ∧
      ((List.range n).flatMap fun k => cut ⟨limit, k * limit⟩ rows) = rows := by
  obtain ⟨n, hbegin, hreach⟩ := exists_count_of_pages hlimit rows.length
  refine ⟨n, fun k hk hempty => ?_, (cut_eq_nil_iff hlimit rows).2 hreach, ?_⟩
  · have hbehind := (cut_eq_nil_iff hlimit rows).1 hempty
    have hbefore := hbegin k hk
    simp only at hbehind
    omega
  · rw [flatMap_cut_range, List.take_of_length_le hreach]

end Page
end EquityScreen
