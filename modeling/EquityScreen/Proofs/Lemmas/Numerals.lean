import Mathlib.Data.List.Basic
import EquityScreen.Decimal.Basic

/-!
# Numerals

The decimal numeral of a number is read as the number (`digitsValue_toDigits`). Digits are the numeral of what they are read as
unless they have a zero in front (`toDigits_digitsValue`), which no numeral of a number above zero has (`head?_toDigits_ne`).
-/

namespace EquityScreen

theorem digitsValue_eq_ofDigitChars (cs : List Char) (start : Nat) : digitsValue start cs = Nat.ofDigitChars 10 cs start := by
  unfold digitsValue Nat.ofDigitChars
  simp only [Nat.mul_comm]

/-- A numeral is read as the number it writes. -/
@[simp] theorem digitsValue_toDigits (n : Nat) : digitsValue 0 (Nat.toDigits 10 n) = n := by
  rw [digitsValue_eq_ofDigitChars, Nat.ofDigitChars_ten_toDigits]

/-- A digit is the numeral of its value. -/
theorem exists_digitChar {c : Char} (h : c.isDigit = true) :
    ∃ d < 10, c = d.digitChar ∧ c.toNat - '0'.toNat = d := by
  have hrange : '0'.toNat ≤ c.toNat ∧ c.toNat ≤ '9'.toNat := by
    rw [Char.isDigit, Bool.and_eq_true, decide_eq_true_iff, decide_eq_true_iff] at h
    exact h
  have hzero : '0'.toNat = 48 := rfl
  have hnine : '9'.toNat = 57 := rfl
  refine ⟨c.toNat - '0'.toNat, by omega, ?_, rfl⟩
  rw [← Char.toNat_inj, Nat.toNat_digitChar_of_lt_ten (by omega)]
  omega

/-- Digits after a number that is not zero are read as those of a longer numeral. -/
theorem toDigits_digitsValue_of_pos {cs : List Char} (hcs : ∀ c ∈ cs, c.isDigit = true) {start : Nat} (hstart : 0 < start) :
    Nat.toDigits 10 (digitsValue start cs) = Nat.toDigits 10 start ++ cs := by
  induction cs generalizing start with
  | nil => exact (List.append_nil _).symm
  | cons c cs ih =>
    obtain ⟨hc, hrest⟩ := List.forall_mem_cons.1 hcs
    obtain ⟨d, hd, rfl, hvalue⟩ := exists_digitChar hc
    have hstep : digitsValue start (d.digitChar :: cs) = digitsValue (10 * start + d) cs := by
      show digitsValue (start * 10 + (d.digitChar.toNat - '0'.toNat)) cs = _
      rw [hvalue, Nat.mul_comm]
    rw [hstep, ih hrest (by omega), ← Nat.toDigits_append_toDigits (by decide) hstart hd, Nat.toDigits_of_lt_base hd,
      List.append_assoc, List.singleton_append]

/-- Digits without a zero in front are the numeral of the number they are read as. -/
theorem toDigits_digitsValue {cs : List Char} (hne : cs ≠ []) (hcs : ∀ c ∈ cs, c.isDigit = true)
    (hzero : cs.head? ≠ some '0') : Nat.toDigits 10 (digitsValue 0 cs) = cs := by
  cases cs with
  | nil => exact absurd rfl hne
  | cons c cs =>
    obtain ⟨hc, hrest⟩ := List.forall_mem_cons.1 hcs
    obtain ⟨d, hd, rfl, hvalue⟩ := exists_digitChar hc
    have hpos : 0 < d := by
      rcases Nat.eq_zero_or_pos d with rfl | hpos
      · exact absurd rfl hzero
      · exact hpos
    have hstep : digitsValue 0 (d.digitChar :: cs) = digitsValue d cs := by
      show digitsValue (0 * 10 + (d.digitChar.toNat - '0'.toNat)) cs = _
      rw [hvalue, Nat.zero_mul, Nat.zero_add]
    rw [hstep, toDigits_digitsValue_of_pos hrest hpos, Nat.toDigits_of_lt_base hd, List.singleton_append]

/-- The numeral of a number that is not zero has no zero in front. -/
theorem head?_toDigits_ne {n : Nat} (hn : 0 < n) : (Nat.toDigits 10 n).head? ≠ some '0' := by
  induction n using Nat.strongRecOn with
  | ind n ih =>
    rcases Nat.lt_or_ge n 10 with hlt | hge
    · rw [Nat.toDigits_of_lt_base hlt, List.head?_singleton, Ne, Option.some_inj, Nat.digitChar_eq_zero]
      omega
    · have hshorter := ih (n / 10) (by omega) (by omega)
      rw [Nat.toDigits_of_base_le (by decide) hge]
      rwa [List.head?_append_of_ne_nil _ Nat.toDigits_ne_nil]

end EquityScreen
