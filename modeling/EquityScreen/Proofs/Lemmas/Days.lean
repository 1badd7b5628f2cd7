import Mathlib
import EquityScreen.Calendar.Date
import EquityScreen.Proofs.Lemmas.Numerals

/-!
# How days are written

A day of a four-digit year takes ten characters, and so the order of two such texts is the order of the days
(`toText_le_iff`). A day of any other year has a sign in front, which comes before every digit (`toText_lt_of_signed`). A
written day reads as itself (`readStored?_toText`). Going back some days from a day of the calendar leads to no later year
(`year_minusDays_le`), and so the written days whose texts lie between the two lie between the two themselves
(`Date.le_of_between`).
-/

namespace EquityScreen

/-- Lists that start with as many characters each are ordered as their starts, and behind equal starts as the rest. -/
theorem append_lt_append_iff {xs ys us vs : List Char} (h : xs.length = ys.length) :
    xs ++ us < ys ++ vs ↔ xs < ys ∨ xs = ys ∧ us < vs := by
  induction xs generalizing ys with
  | nil =>
    obtain rfl : ys = [] := List.length_eq_zero_iff.1 h.symm
    simp
  | cons x xs ih =>
    cases ys with
    | nil => exact absurd h (by simp)
    | cons y ys =>
      have hrest := ih (Nat.succ.inj h)
      rw [List.cons_append, List.cons_append, List.cons_lt_cons_iff, List.cons_lt_cons_iff, hrest, List.cons.injEq]
      tauto

namespace Date

/-! ## Numbers with zeros in front -/

theorem toList_padded (w n : Nat) :
    (padded w n).toList = List.replicate (w - (Nat.toDigits 10 n).length) '0' ++ Nat.toDigits 10 n := by
  have hlength : n.repr.length = (Nat.toDigits 10 n).length := by rw [← String.length_toList, Nat.toList_repr]
  simp [padded, hlength]

/-- The last digit of a number is behind the others. -/
theorem toList_padded_succ {w : Nat} (hw : 0 < w) (n : Nat) :
    (padded (w + 1) n).toList = (padded w (n / 10)).toList ++ [(n % 10).digitChar] := by
  rw [toList_padded, toList_padded, Nat.toDigits_eq_if (n := n) (by decide)]
  split
  · rename_i hlt
    obtain ⟨k, rfl⟩ := Nat.exists_eq_add_of_lt hw
    rw [Nat.div_eq_of_lt hlt, Nat.mod_eq_of_lt hlt, Nat.toDigits_zero]
    simp [List.replicate_succ']
  · simp

theorem toList_padded_one {n : Nat} (hn : n < 10) : (padded 1 n).toList = [n.digitChar] := by
  rw [toList_padded, Nat.toDigits_of_lt_base hn]
  rfl

/-- A number that has room has just the width. -/
theorem length_padded {w n : Nat} (hw : 0 < w) (hn : n < 10 ^ w) : (padded w n).toList.length = w := by
  induction w, hw using Nat.le_induction generalizing n with
  | base => rw [toList_padded_one (by simpa using hn)]; rfl
  | succ w hw ih =>
    have hdiv : n / 10 < 10 ^ w := by rw [Nat.pow_succ] at hn; omega
    rw [toList_padded_succ hw, List.length_append, ih hdiv]
    rfl

/-- Digits are ordered as what they stand for. -/
theorem digitChar_lt_iff {a b : Nat} (ha : a < 10) (hb : b < 10) : a.digitChar < b.digitChar ↔ a < b := by
  have hall : ∀ a < 10, ∀ b < 10, (Nat.digitChar a < Nat.digitChar b ↔ a < b) := by decide
  exact hall a ha b hb

/-- A written number reads as itself. -/
theorem digitsValue_padded (w n : Nat) : digitsValue 0 (padded w n).toList = n := by
  rw [digitsValue_eq_ofDigitChars, toList_padded, Nat.ofDigitChars_append, Nat.ofDigitChars_replicate_zero, Nat.mul_zero,
    Nat.ofDigitChars_ten_toDigits]

/-- Numbers are told apart by how they are written. -/
theorem padded_inj {w a b : Nat} : (padded w a).toList = (padded w b).toList ↔ a = b := by
  constructor
  · intro h
    rw [← digitsValue_padded w a, h, digitsValue_padded]
  · rintro rfl
    rfl

/-- Numbers of one width are ordered as they are written. -/
theorem padded_lt_iff {w a b : Nat} (hw : 0 < w) (ha : a < 10 ^ w) (hb : b < 10 ^ w) :
    (padded w a).toList < (padded w b).toList ↔ a < b := by
  induction w, hw using Nat.le_induction generalizing a b with
  | base =>
    rw [Nat.pow_one] at ha hb
    rw [toList_padded_one ha, toList_padded_one hb, List.cons_lt_cons_iff, digitChar_lt_iff ha hb]
    simp
  | succ w hw ih =>
    have ha' : a / 10 < 10 ^ w := by rw [Nat.pow_succ] at ha; omega
    have hb' : b / 10 < 10 ^ w := by rw [Nat.pow_succ] at hb; omega
    rw [toList_padded_succ hw, toList_padded_succ hw,
      append_lt_append_iff (by rw [length_padded hw ha', length_padded hw hb']), ih ha' hb', padded_inj,
      List.cons_lt_cons_iff, digitChar_lt_iff (Nat.mod_lt a (by decide)) (Nat.mod_lt b (by decide))]
    simp only [List.not_lt_nil, and_false, or_false]
    omega

/-- A number is written with digits. -/
theorem isDigit_of_mem_padded {w n : Nat} {c : Char} (h : c ∈ (padded w n).toList) : c.isDigit = true := by
  rw [toList_padded, List.mem_append] at h
  rcases h with h | h
  · rw [List.eq_of_mem_replicate h]
    rfl
  · exact Nat.isDigit_of_mem_toDigits (by decide) (by decide) h

/-- A number of one width is written with a digit in front. -/
theorem exists_cons_padded {w n : Nat} (hw : 0 < w) (hn : n < 10 ^ w) :
    ∃ c cs, (padded w n).toList = c :: cs ∧ c.isDigit = true := by
  have hlength := length_padded hw hn
  cases hdigits : (padded w n).toList with
  | nil =>
    rw [hdigits] at hlength
    exact absurd hlength hw.ne
  | cons c cs =>
    refine ⟨c, cs, rfl, isDigit_of_mem_padded (w := w) (n := n) ?_⟩
    rw [hdigits]
    exact List.mem_cons_self

/-! ## Days of the calendar -/

/-- The day is one of the calendar. -/
def IsDay (d : Date) : Prop := ofParts? d.year d.month d.day = some d

theorem isDay_iff {d : Date} : d.IsDay ↔
    leastYear ≤ d.year ∧ d.year ≤ greatestYear ∧ 1 ≤ d.month ∧ d.month ≤ 12 ∧ 1 ≤ d.day ∧ d.day ≤ daysIn d.year d.month := by
  unfold IsDay ofParts?
  split
  · rename_i h
    exact ⟨fun _ => h, fun _ => rfl⟩
  · rename_i h
    exact ⟨nofun, fun h' => absurd h' h⟩

/-! ## Days of four-digit years -/

/-- The parts of the day have room: the year in four digits without a sign, the month and the day in two each. -/
structure IsPlain (d : Date) : Prop where
  year_nonneg : 0 ≤ d.year
  year_lt : d.year.natAbs < 10 ^ 4
  month_lt : d.month < 10 ^ 2
  day_lt : d.day < 10 ^ 2

theorem daysIn_le (year : Int) (month : Nat) : daysIn year month ≤ 31 := by
  unfold daysIn
  split
  · split <;> decide
  · split <;> decide

/-- A day of the calendar in a year of four digits has room for its parts. -/
theorem IsDay.isPlain {d : Date} (h : d.IsDay) (hnonneg : 0 ≤ d.year) (hle : d.year ≤ 9999) : d.IsPlain := by
  obtain ⟨-, -, -, hmonth, -, hday⟩ := isDay_iff.1 h
  have hin := daysIn_le d.year d.month
  exact ⟨hnonneg, by omega, by omega, by omega⟩

theorem toList_toText {d : Date} (h : d.IsPlain) : d.toText.toList =
    (padded 4 d.year.natAbs).toList ++ ('-' :: (padded 2 d.month).toList ++ ('-' :: (padded 2 d.day).toList)) := by
  have hyear : d.year ≤ 9999 := by
    have := h.year_lt
    omega
  rw [toText, yearText, if_pos ⟨h.year_nonneg, hyear⟩]
  simp

/-- Days of four-digit years are in order of time as they are written. -/
theorem toText_le_iff {a b : Date} (ha : a.IsPlain) (hb : b.IsPlain) : a.toText ≤ b.toText ↔ a.le b = true := by
  have hdash (xs ys : List Char) : '-' :: xs < '-' :: ys ↔ xs < ys := by
    rw [List.cons_lt_cons_iff]
    simp
  have hyears := (length_padded (by decide) hb.year_lt).trans (length_padded (by decide) ha.year_lt).symm
  have hmonths := (length_padded (by decide) hb.month_lt).trans (length_padded (by decide) ha.month_lt).symm
  have hlt : b.toText < a.toText ↔ b.year.natAbs < a.year.natAbs ∨ b.year.natAbs = a.year.natAbs ∧
      (b.month < a.month ∨ b.month = a.month ∧ b.day < a.day) := by
    show b.toText.toList < a.toText.toList ↔ _
    rw [toList_toText ha, toList_toText hb, append_lt_append_iff hyears, padded_lt_iff (by decide) hb.year_lt ha.year_lt,
      padded_inj, List.cons_append, List.cons_append, hdash, append_lt_append_iff hmonths,
      padded_lt_iff (by decide) hb.month_lt ha.month_lt, padded_inj, hdash, padded_lt_iff (by decide) hb.day_lt ha.day_lt]
  have := ha.year_nonneg
  have := hb.year_nonneg
  rw [← String.not_lt, hlt, le]
  simp only [Bool.or_eq_true, Bool.and_eq_true, decide_eq_true_eq, beq_iff_eq]
  omega

/-- A day of any other year is written with a sign in front, which comes before every digit. -/
theorem toText_lt_of_signed {a b : Date} (ha : ¬(0 ≤ a.year ∧ a.year ≤ 9999)) (hb : b.IsPlain) : a.toText < b.toText := by
  obtain ⟨c, cs, hcs, hdigit⟩ := exists_cons_padded (by decide) hb.year_lt
  obtain ⟨sign, rest, hsign, hlow⟩ : ∃ sign rest, a.toText.toList = sign :: rest ∧ sign < '0' := by
    rw [toText, yearText, if_neg ha]
    by_cases hneg : a.year < 0
    · exact ⟨'-', _, by rw [if_pos hneg]; simp; rfl, by decide⟩
    · exact ⟨'+', _, by rw [if_neg hneg]; simp; rfl, by decide⟩
  have hzero : '0' ≤ c := of_decide_eq_true (Bool.and_eq_true_iff.1 hdigit).1
  show a.toText.toList < b.toText.toList
  rw [hsign, toList_toText hb, hcs, List.cons_append, List.cons_lt_cons_iff]
  exact .inl (lt_of_lt_of_le hlow hzero)

/-! ## Reading a written day -/

/-- Nothing is trimmed in front of a digit. -/
theorem trimLeft_cons_of_isDigit {c : Char} (h : c.isDigit = true) (cs : List Char) : Text.trimLeft (c :: cs) = c :: cs := by
  have hrange : 48 ≤ c.toNat ∧ c.toNat ≤ 57 := Char.isDigit_iff_toNat.1 h
  have hblank : Text.isBlank c = false := by
    simp only [Text.isBlank, Bool.or_eq_false_iff, Bool.and_eq_false_iff, decide_eq_false_iff_not, beq_eq_false_iff_ne]
    omega
  rw [Text.trimLeft, List.dropWhile_cons_of_neg (by rw [hblank]; decide)]

section Padded

variable {w n : Nat} (hw : 0 < w) (hn : n < 10 ^ w) (rest : List Char)
include hw hn

theorem takeNumber_padded : takeNumber w ((padded w n).toList ++ rest) = some (n, rest) := by
  have hlength := length_padded hw hn
  have hdigits : (((padded w n).toList ++ rest).take w).takeWhile Char.isDigit = (padded w n).toList := by
    rw [List.take_left' hlength, List.takeWhile_eq_self_iff]
    exact fun c => isDigit_of_mem_padded
  have hsome : (padded w n).toList.isEmpty = false := by
    rw [List.isEmpty_eq_false_iff, ← List.length_pos_iff]
    omega
  simp only [takeNumber, hdigits, hsome, Bool.false_eq_true, if_false, digitsValue_padded, List.drop_left]

theorem trimLeft_padded : Text.trimLeft ((padded w n).toList ++ rest) = (padded w n).toList ++ rest := by
  obtain ⟨c, cs, hcs, hdigit⟩ := exists_cons_padded hw hn
  rw [hcs, List.cons_append, trimLeft_cons_of_isDigit hdigit]

end Padded

/-- A written day reads as itself, if the calendar has it. -/
theorem readStored?_toText {d : Date} (h : d.IsPlain) : readStored? d.toText = ofParts? d.year d.month d.day := by
  have htwo : ∀ {n : Nat}, n < 10 ^ 2 → ∀ rest, takeTwo ((padded 2 n).toList ++ rest) = some (n, rest) := by
    intro n hn rest
    rw [takeTwo, trimLeft_padded (by decide) hn, takeNumber_padded (by decide) hn]
  have hyear : ∀ rest, takeYear ((padded 4 d.year.natAbs).toList ++ rest) = some (d.year, rest) := by
    intro rest
    have hnumber := takeNumber_padded (by decide) h.year_lt rest
    have hself : ((d.year.natAbs : Nat) : Int) = d.year := Int.natAbs_of_nonneg h.year_nonneg
    rw [takeYear, trimLeft_padded (by decide) h.year_lt]
    obtain ⟨c, cs, hcs, hdigit⟩ := exists_cons_padded (by decide) h.year_lt
    rw [hcs, List.cons_append] at hnumber ⊢
    split
    · rename_i heq
      rw [(List.cons.inj heq).1] at hdigit
      exact absurd hdigit (by decide)
    · rename_i heq
      rw [(List.cons.inj heq).1] at hdigit
      exact absurd hdigit (by decide)
    · rw [hnumber, Option.map_some]
      exact congrArg (fun y => some (y, rest)) hself
  have hday := htwo h.day_lt []
  rw [List.append_nil] at hday
  rw [readStored?, toList_toText h, readWith, hyear]
  simp only [bind, Option.bind, id, List.cons_append, takeDash, htwo h.month_lt, hday]
  rfl

/-- The text is a year of four digits, a month and a day of two each, with dashes between. -/
def IsWritten (text : String) : Prop := ∃ d : Date, d.IsPlain ∧ text = d.toText

/-- Of a written text only the day that it writes can be read. -/
theorem IsWritten.of_readStored? {text : String} (h : IsWritten text) {d : Date} (hd : readStored? text = some d) :
    d.IsPlain ∧ d.IsDay ∧ text = d.toText := by
  obtain ⟨d', hplain, rfl⟩ := h
  rw [readStored?_toText hplain] at hd
  obtain ⟨-, heq⟩ := Option.ite_none_right_eq_some.1 hd
  obtain rfl : d' = d := Option.some.inj heq
  exact ⟨hplain, hd, rfl⟩

/-! ## Going back -/

/-- No day of a four-digit year has a greater number than the last one. -/
theorem number_le {d : Date} (h : d.IsDay) (hyear : d.year ≤ 9999) : d.number ≤ 3652364 := by
  obtain ⟨-, -, hmonth, hmonth', hday, hday'⟩ := isDay_iff.1 h
  have hle := daysIn_le d.year d.month
  unfold number
  dsimp only
  -- Only the last of the years is near the bound.
  have hlast : d.year = 9999 ∨ d.year ≤ 9998 := by omega
  rcases hlast with hlast | hlast
  · rw [hlast]
    split <;> omega
  · split <;> omega

/-- The parts of the day that is so many days after the start of an era of 400 years, as `ofNumber` takes them apart. -/
theorem era_bounds {dayOfEra yearOfEra dayOfYear : Nat} (hera : dayOfEra ≤ 146096)
    (hyear : yearOfEra = (dayOfEra - dayOfEra / 1460 + dayOfEra / 36524 - dayOfEra / 146096) / 365)
    (hday : dayOfYear = dayOfEra - (365 * yearOfEra + yearOfEra / 4 - yearOfEra / 100)) :
    yearOfEra ≤ 400 ∧ dayOfYear ≤ 400 := by
  omega

/-- The day of a number has room for its month and its day. -/
theorem ofNumber_bounds (n : Int) : (ofNumber n).month < 10 ^ 2 ∧ (ofNumber n).day < 10 ^ 2 := by
  have hera : (n % 146097).toNat ≤ 146096 := by omega
  obtain ⟨-, hday⟩ := era_bounds hera rfl rfl
  unfold ofNumber
  dsimp only
  generalize (n % 146097).toNat - _ = dayOfYear at hday ⊢
  constructor
  · split <;> omega
  · omega

/-- In the era of the year 9999 the last of its 400 years ends with that year's December. -/
theorem last_era_bounds {dayOfEra yearOfEra dayOfYear : Nat} (hera : dayOfEra ≤ 146036)
    (hyear : yearOfEra = (dayOfEra - dayOfEra / 1460 + dayOfEra / 36524 - dayOfEra / 146096) / 365)
    (hday : dayOfYear = dayOfEra - (365 * yearOfEra + yearOfEra / 4 - yearOfEra / 100)) :
    yearOfEra ≤ 398 ∨ yearOfEra = 399 ∧ dayOfYear ≤ 305 := by
  omega

/-- A number up to that of the last day of the four-digit years is of a day of one of these years, or of an earlier one. -/
theorem year_ofNumber_le {n : Int} (hn : n ≤ 3652364) : (ofNumber n).year ≤ 9999 := by
  have hera : (n % 146097).toNat ≤ 146096 := by omega
  obtain ⟨hyear, -⟩ := era_bounds hera rfl rfl
  have hlast : n / 146097 ≤ 23 ∨ n / 146097 = 24 := by omega
  unfold ofNumber
  dsimp only
  rcases hlast with hlast | hlast
  · split <;> omega
  · have hend : (n % 146097).toNat ≤ 146036 := by omega
    rcases last_era_bounds hend rfl rfl with hbefore | ⟨hlastYear, hlastDay⟩
    · split <;> omega
    · rw [hlastYear] at hlastDay ⊢
      split <;> omega

/-- Going back some days from a day of a four-digit year, or an earlier one, leads to a day of such a year. -/
theorem year_minusDays_le {d : Date} (h : d.IsDay) (hyear : d.year ≤ 9999) (n : Nat) : (d.minusDays n).year ≤ 9999 := by
  unfold minusDays
  split
  · decide
  · exact year_ofNumber_le (by have := number_le h hyear; omega)

theorem minusDays_bounds (d : Date) (n : Nat) : (d.minusDays n).month < 10 ^ 2 ∧ (d.minusDays n).day < 10 ^ 2 := by
  unfold minusDays
  split
  · decide
  · exact ofNumber_bounds _

/-- The texts between two days that write a day write a day between them, where the first day is so many days before the
last. -/
theorem le_of_between {finish d : Date} (hfinish : finish.IsDay) (n : Nat) (hd : d.IsPlain)
    (hstart : (finish.minusDays n).toText ≤ d.toText) (hend : d.toText ≤ finish.toText) :
    (finish.minusDays n).le d = true ∧ d.le finish = true := by
  have hyears : 0 ≤ finish.year ∧ finish.year ≤ 9999 := by
    by_contra hsigned
    exact absurd (toText_lt_of_signed hsigned hd) hend
  have hplain := hfinish.isPlain hyears.1 hyears.2
  refine ⟨?_, (toText_le_iff hd hplain).1 hend⟩
  obtain ⟨hmonth', hday'⟩ := minusDays_bounds finish n
  have hyear' := year_minusDays_le hfinish hyears.2 n
  by_cases hneg : (finish.minusDays n).year < 0
  · have := hd.year_nonneg
    simp only [le, Bool.or_eq_true, decide_eq_true_eq]
    omega
  · exact (toText_le_iff ⟨by omega, by omega, hmonth', hday'⟩ hd).1 hstart

end Date
end EquityScreen
