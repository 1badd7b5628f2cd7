import EquityScreen.Proofs.CrossingOperands
import EquityScreen.Proofs.Lemmas.Numerals
import EquityScreen.Proofs.Lemmas.WholeNumbers

/-!
# Names of computed fields and names of columns

The specification of a computed field is read off its name: the digits behind the stem are the period, which becomes a double. The
column is named after the period that is read from the double again. So two spellings lose their field (`field_found_iff_spelled`):
digits with a zero in front, which no column has, and a period that no double stands for, in whose place the column has the
nearest one. The greatest count is kept all the same, because a double above it is read as the greatest count. Names of lines
have no period and are never lost. Whether any memory holds rings of such a period is another question (`Series.hasRoomFor`).
-/

namespace EquityScreen

namespace Spec

variable {field : String} {spec t : Spec} {n : Nat}

/-! ## Periods as parameters -/

/-- The period of a specification that is made for a count. -/
def keptPeriod (n : Nat) : Nat := min (nearestDouble n) greatestCount

/-- A count that a specification can have as its period. -/
def KeepsPeriod (n : Nat) : Prop := IsDouble n ∨ n = greatestCount

instance : DecidablePred KeepsPeriod := fun n => inferInstanceAs (Decidable (IsDouble n ∨ n = greatestCount))

theorem keptPeriod_eq_iff (hn : n ≤ greatestCount) : keptPeriod n = n ↔ KeepsPeriod n := by
  unfold keptPeriod KeepsPeriod
  constructor
  · intro h
    rcases le_total (nearestDouble n) greatestCount with hle | hge
    · rw [min_eq_left hle] at h
      exact .inl (nearestDouble_eq_iff.1 h)
    · rw [min_eq_right hge] at h
      exact .inr h.symm
  · rintro (hdouble | rfl)
    · rw [nearestDouble_eq_iff.2 hdouble, min_eq_left hn]
    · decide

/-- A count that is given as a parameter is a period. -/
theorem period_ofNat {key : String} {usual : Nat} (h : spec.params.get? key = some (.number (Float.ofNat n))) (hpos : 0 < n)
    (hn : n ≤ greatestCount) : spec.period key usual = .ok (keptPeriod n) := by
  have hbits : n < 2 ^ 64 := Nat.lt_of_le_of_lt hn (by decide)
  unfold period
  rw [h]
  dsimp only
  rw [wholeNumber?_ofNat hpos hbits]
  exact if_pos (nearestDouble_pos hpos)

/-- Every period is such a count. -/
theorem keepsPeriod_of_period {key : String} {usual : Nat} (h : spec.period key usual = .ok n) (husual : IsDouble usual) :
    KeepsPeriod n := by
  unfold period at h
  split at h
  · exact .inl (Except.ok.inj h ▸ husual)
  · split at h
    · rename_i x k hk
      split at h
      · rw [← Except.ok.inj h]
        rcases le_total k greatestCount with hle | hge
        · rw [min_eq_left hle]
          exact .inl (.of_wholeNumber? hk)
        · rw [min_eq_right hge]
          exact .inr rfl
      · exact absurd h (by simp)
    · exact absurd h (by simp)
  · exact absurd h (by simp)

/-! ## Names with a period -/

/-- The end of a field name from its first digit on. -/
def periodDigits (field : String) : List Char := field.toList.dropWhile (!·.isDigit)

/-- A name is spelled as columns are: its period has no zero in front, and is one that a specification can have. A name
without digits has no period to be lost. -/
structure SpelledAsColumn (field : String) : Prop where
  noZeroInFront : (periodDigits field).head? ≠ some '0'
  keepsPeriod : KeepsPeriod (digitsValue 0 (periodDigits field))

instance : DecidablePred SpelledAsColumn := fun field => decidable_of_iff
  ((periodDigits field).head? ≠ some '0' ∧ KeepsPeriod (digitsValue 0 (periodDigits field)))
  ⟨fun h => ⟨h.1, h.2⟩, fun h => ⟨h.noZeroInFront, h.keepsPeriod⟩⟩

/-- The specifications whose one column carries their period, by the stem of the column. -/
def stems : List (String × (Nat → Spec)) := [("ma", ma), ("ema", ema), ("rsi", (rsi · .ema)), ("atr", atr)]

/-- The period of a column is read off its name. -/
theorem periodDigits_columnName {stem : String} (hstem : stem.toList.all (!·.isDigit) = true) (n : Nat) :
    periodDigits (columnName stem n) = Nat.toDigits 10 n := by
  have hnumeral : (Nat.toDigits 10 n).dropWhile (!·.isDigit) = Nat.toDigits 10 n := by
    cases hdigits : Nat.toDigits 10 n with
    | nil => rfl
    | cons c cs =>
      have hc : c.isDigit = true :=
        Nat.isDigit_of_mem_toDigits (b := 10) (n := n) (by decide) (by decide) (hdigits ▸ List.mem_cons_self)
      rw [List.dropWhile_cons_of_neg]
      simp [hc]
  rw [periodDigits, columnName, String.toList_append, Nat.toString_eq_repr, Nat.toList_repr,
    List.dropWhile_append_of_pos (List.all_eq_true.1 hstem), hnumeral]

/-- What has a column spelled so writes it: columns are named after periods that are kept. -/
theorem SpelledAsColumn.columnName {stem : String} (hstem : stem.toList.all (!·.isDigit) = true) (hpos : 0 < n)
    (hn : KeepsPeriod n) : SpelledAsColumn (columnName stem n) where
  noZeroInFront := by
    rw [periodDigits_columnName hstem]
    exact head?_toDigits_ne hpos
  keepsPeriod := by rwa [periodDigits_columnName hstem, digitsValue_toDigits]

/-- Every column that some specification writes is spelled as columns are. -/
theorem SpelledAsColumn.of_writes (h : t.Writes field) : SpelledAsColumn field := by
  have hlines : ∀ name ∈ Indicator.lineNames, SpelledAsColumn name := by decide
  have hstems : ∀ p ∈ periodStems, p.1.toList.all (!·.isDigit) = true ∧ 0 < p.2 ∧ IsDouble p.2 := by decide
  rcases h.line_or_period with hline | ⟨p, hp, n, hn, rfl⟩
  · exact hlines field hline
  · obtain ⟨hstem, hpos, husual⟩ := hstems p hp
    exact .columnName hstem (one_le_of_period hn hpos) (keepsPeriod_of_period hn husual)

/-! ## The specification of a name -/

/-- The indicator of a specification that is made for a count has the period that is kept. -/
theorem exists_checked_of_mem_stems {p : String × (Nat → Spec)} (hp : p ∈ stems) (hpos : 0 < n) (hn : n ≤ greatestCount) :
    ∃ i, (p.2 n).checked = .ok i ∧ i.outputs = [columnName p.1 (keptPeriod n)] := by
  simp only [stems, List.mem_cons, List.not_mem_nil, or_false] at hp
  rcases hp with rfl | rfl | rfl | rfl
  · exact ⟨_, checked_eq_ok_iff.2 (.ma rfl (period_ofNat rfl hpos hn)), rfl⟩
  · exact ⟨_, checked_eq_ok_iff.2 (.ema rfl (period_ofNat rfl hpos hn)), rfl⟩
  · have hnodup : ([("n", .number (Float.ofNat n)), ("method", .text "ema")] : List (String × Value)).map (·.1) |>.Nodup :=
      (by decide : ["n", "method"].Nodup)
    have hgiven := Named.get?_ofList_eq_some_iff hnodup
    have hmethod : (rsi n .ema).method = .ok .ema := by
      have hread : RsiMethod.ofName? (Text.foldAscii "ema") = some .ema := by decide
      have hparam : (rsi n .ema).params.get? "method" = some (.text "ema") := (hgiven _ _).2 (by simp)
      rw [method, hparam]
      dsimp only
      rw [hread]
    exact ⟨_, checked_eq_ok_iff.2 (.rsi rfl (period_ofNat ((hgiven _ _).2 (by simp)) hpos hn) hmethod), rfl⟩
  · exact ⟨_, checked_eq_ok_iff.2 (.atr rfl (period_ofNat rfl hpos hn)), rfl⟩

/-- A period in a name has digits, up to the end, of a count above zero. -/
theorem periodOfDigits_eq_some {cs : List Char} (h : periodOfDigits cs = some n) :
    cs ≠ [] ∧ (∀ c ∈ cs, c.isDigit = true) ∧ digitsValue 0 cs = n ∧ 0 < n ∧ n ≤ greatestCount := by
  unfold periodOfDigits at h
  split at h
  · exact absurd h (by simp)
  · rename_i hdigits
    simp only [Bool.or_eq_true, List.isEmpty_iff, List.any_eq_true, not_or, not_exists, not_and, Bool.not_eq_true,
      Bool.not_eq_false'] at hdigits
    dsimp only at h
    split at h
    · rename_i hrange
      rw [Bool.and_eq_true, decide_eq_true_iff, decide_eq_true_iff] at hrange
      obtain rfl := Option.some.inj h
      exact ⟨hdigits.1, hdigits.2, rfl, hrange⟩
    · exact absurd h (by simp)

/-- A field that has a specification is the line of an indicator, or a stem with a period behind it. -/
theorem forField?_eq_some (h : forField? field = some spec) : field ∈ Indicator.lineNames ∨
    ∃ p ∈ stems, ∃ n, spec = p.2 n ∧ field.toList = p.1.toList ++ periodDigits field ∧
      periodOfDigits (periodDigits field) = some n := by
  unfold forField? at h
  split at h
  case h_10 =>
    refine .inr ?_
    have hsplit : field.toList = field.toList.takeWhile (!·.isDigit) ++ periodDigits field :=
      (List.takeWhile_append_dropWhile).symm
    have hfound (p : String × (Nat → Spec)) (hp : p ∈ stems) {n : Nat}
        (hstem : String.ofList (field.toList.takeWhile (!·.isDigit)) = p.1)
        (hn : periodOfDigits (field.toList.dropWhile (!·.isDigit)) = some n) (h : some (p.2 n) = some spec) :
        ∃ p ∈ stems, ∃ n, spec = p.2 n ∧ field.toList = p.1.toList ++ periodDigits field ∧
          periodOfDigits (periodDigits field) = some n := by
      refine ⟨p, hp, n, (Option.some.inj h).symm, ?_, hn⟩
      rwa [← hstem, String.toList_ofList]
    dsimp only at h
    split at h
    · rename_i n hstem hn
      exact hfound ("ma", ma) (by simp [stems]) hstem hn h
    · rename_i n hstem hn
      exact hfound ("ema", ema) (by simp [stems]) hstem hn h
    · rename_i n hstem hn
      exact hfound ("rsi", (rsi · .ema)) (by simp [stems]) hstem hn h
    · rename_i n hstem hn
      exact hfound ("atr", atr) (by simp [stems]) hstem hn h
    · exact absurd h (by simp)
  all_goals exact .inl (by decide)

/-- The specification of a field can be computed, and writes the field exactly if it is spelled as columns are. -/
theorem exists_checked_of_forField? (h : forField? field = some spec) :
    ∃ i, spec.checked = .ok i ∧ (field ∈ i.outputs ↔ SpelledAsColumn field) := by
  have hspelled {i : Indicator} (hi : spec.checked = .ok i) (hfield : field ∈ i.outputs) : SpelledAsColumn field :=
    .of_writes ⟨i.outputs, outputs_of_checked hi, hfield⟩
  rcases forField?_eq_some h with hline | ⟨p, hp, n, rfl, hname, hdigits⟩
  · have hcatalog : ∀ name ∈ Indicator.lineNames, name ∈ Catalog.technicalNames := by decide
    obtain ⟨s, i, hs, hi, hfield⟩ := exists_plannable (hcatalog field hline)
    obtain rfl := Option.some.inj (hs.symm.trans h)
    exact ⟨i, hi.checked, iff_of_true hfield (hspelled hi.checked hfield)⟩
  · obtain ⟨hne, hdigit, hvalue, hpos, hn⟩ := periodOfDigits_eq_some hdigits
    obtain ⟨i, hi, houtputs⟩ := exists_checked_of_mem_stems hp hpos hn
    refine ⟨i, hi, hspelled hi, fun hfield => ?_⟩
    have hnumeral : Nat.toDigits 10 n = periodDigits field := hvalue ▸ toDigits_digitsValue hne hdigit hfield.noZeroInFront
    have hkept : keptPeriod n = n := (keptPeriod_eq_iff hn).2 (hvalue ▸ hfield.keepsPeriod)
    rw [houtputs, hkept, List.mem_singleton, ← String.toList_inj, hname, columnName, String.toList_append,
      Nat.toString_eq_repr, Nat.toList_repr, hnumeral]

/-- No double stands for this period, so the column is named after the nearest one; the greatest count is kept. -/
example : ¬SpelledAsColumn "ma9007199254740993" ∧ keptPeriod 9007199254740993 = 9007199254740992 ∧
    SpelledAsColumn "ma18446744073709551615" := by decide

/-! ## Specifications of a plan -/

theorem required_subset (spec : Spec) : ∀ name ∈ spec.required, name ∈ priceColumns := by
  unfold required
  split <;> decide

/-- Specifications that are the same write the same columns. -/
theorem writes_of_same (h : t.same spec = true) (ht : ∃ i, t.checked = .ok i) (hfield : spec.Writes field) : t.Writes field := by
  obtain ⟨i, hi⟩ := ht
  rw [writes_iff (outputs_of_checked (checked_of_same h hi))] at hfield
  exact ⟨i.outputs, outputs_of_checked hi, hfield⟩

end Spec

namespace Registry

variable {r : Registry} {c : Condition} {keys : List SortKey} {field : String}

/-- The specifications of a plan are those of names. -/
theorem exists_forField?_of_mem_specs {s : Spec} (h : s ∈ (r.analyze c keys).specs) : ∃ name, Spec.forField? name = some s := by
  rcases List.mem_append.1 (Spec.mem_of_mem_dedup h) with h | h
  · obtain ⟨name, -, hs⟩ := List.mem_filterMap.1 h
    exact ⟨name, hs⟩
  · split at h
    · exact absurd h List.not_mem_nil
    · obtain ⟨name, -, hs⟩ := List.mem_filterMap.1 h
      exact ⟨name, hs⟩

/-- Over a series with the columns of bars a plan is computed. -/
theorem exists_compute_analyze {series : Series} (hprices : ∀ name ∈ Spec.priceColumns, series.columns.contains name = true)
    (r : Registry) (c : Condition) (keys : List SortKey) : ∃ enriched, series.compute (r.analyze c keys).specs = .ok enriched := by
  refine Series.exists_compute_iff.2 fun s hs => ?_
  obtain ⟨name, hname⟩ := exists_forField?_of_mem_specs hs
  obtain ⟨i, hi, -⟩ := Spec.exists_checked_of_forField? hname
  exact ⟨i, Spec.over_eq_ok_iff.2 ⟨hi, fun n hn => hprices n (s.required_subset n hn)⟩⟩

/-- A plan writes a field that it collects exactly if the field is spelled as columns are. -/
theorem exists_writes_iff (hfield : field ∈ (r.analyze c keys).technical) {spec : Spec} (h : Spec.forField? field = some spec) :
    (∃ t ∈ (r.analyze c keys).specs, t.Writes field) ↔ Spec.SpelledAsColumn field := by
  constructor
  · rintro ⟨t, -, ht⟩
    exact .of_writes ht
  · intro hspelled
    obtain ⟨i, hi, hiff⟩ := Spec.exists_checked_of_forField? h
    have hwrites : spec.Writes field := ⟨i.outputs, Spec.outputs_of_checked hi, hiff.2 hspelled⟩
    have hasked : spec ∈ (r.analyze c keys).technical.filterMap Spec.forField? := List.mem_filterMap.2 ⟨field, hfield, h⟩
    obtain ⟨t, ht, heq | hsame⟩ := Spec.exists_mem_dedup (List.mem_append_left _ hasked)
    · exact ⟨t, ht, heq ▸ hwrites⟩
    · have hkept : t ∈ (r.analyze c keys).specs := ht
      obtain ⟨name, hname⟩ := exists_forField?_of_mem_specs hkept
      obtain ⟨j, hj, -⟩ := Spec.exists_checked_of_forField? hname
      exact ⟨t, hkept, Spec.writes_of_same hsame ⟨j, hj⟩ hwrites⟩

end Registry

/-- The specification that is found for a field has all parameters in range. The field is one of its columns exactly if the name
is spelled as columns are: its period has no zero in front, and is a number that a double stands for or the greatest count. And
so it is wherever the field is asked for: whatever the registry, the plan is computed over any bars, and a field that it collects
and that has a specification is a column of the result exactly if it is spelled so. -/
theorem field_found_iff_spelled {field : String} {spec : Spec} (h : Spec.forField? field = some spec) :
    (∃ i, spec.checked = .ok i) ∧
    (∃ names, spec.outputs = .ok names ∧ (field ∈ names ↔ Spec.SpelledAsColumn field)) ∧
    ∀ (r : Registry) (c : Condition) (keys : List SortKey), field ∈ (r.analyze c keys).technical → ∀ bars : List Bar,
      ∃ enriched, (Series.ofBars bars).withChange.compute (r.analyze c keys).specs = .ok enriched ∧
        (enriched.columns.contains field = true ↔ Spec.SpelledAsColumn field) := by
  obtain ⟨i, hi, hiff⟩ := Spec.exists_checked_of_forField? h
  refine ⟨⟨i, hi⟩, ⟨i.outputs, Spec.outputs_of_checked hi, hiff⟩, fun r c keys hfield bars => ?_⟩
  have hbars : ∀ name ∈ Spec.barColumns, Spec.forField? name = none := by decide
  have hprices : ∀ name ∈ Spec.priceColumns, (Series.ofBars bars).withChange.columns.contains name = true := by
    have hsubset : ∀ name ∈ Spec.priceColumns, name ∈ Spec.barColumns := by decide
    exact fun name hname => (Series.contains_withChange_ofBars bars).2 (hsubset name hname)
  obtain ⟨enriched, hcompute⟩ := Registry.exists_compute_analyze hprices r c keys
  refine ⟨enriched, hcompute, ?_⟩
  rw [Series.contains_compute_iff hcompute, Series.contains_withChange_ofBars, Registry.exists_writes_iff hfield h]
  refine or_iff_right fun hbar => ?_
  rw [hbars field hbar] at h
  exact absurd h (by simp)

/-- A registry with the mean over a week under two names. -/
def weeklyMeans : Registry :=
  ⟨[Catalog.indicator "ma7" "7日均线" "7-day simple moving average" (some "元"),
    Catalog.indicator "ma07" "7日均线" "7-day simple moving average" (some "元")]⟩

/-- Both means are above zero. -/
def bothMeans : Condition :=
  .all [.leaf ⟨"ma7", .gt, .literal (.number 0)⟩, .leaf ⟨"ma07", .gt, .literal (.number 0)⟩]

/-- Under both names the mean is collected and computed; it is found under the one without a zero in front. -/
theorem weekly_mean_found_once :
    Spec.forField? "ma7" = some (.ma 7) ∧ Spec.forField? "ma07" = some (.ma 7) ∧
      ∃ enriched, (Series.ofBars twoBars).withChange.compute (weeklyMeans.analyze bothMeans []).specs = .ok enriched ∧
        enriched.columns.contains "ma7" = true ∧ enriched.columns.contains "ma07" = false := by
  have hplain : Spec.forField? "ma7" = some (.ma 7) := by decide
  have hpadded : Spec.forField? "ma07" = some (.ma 7) := by decide
  obtain ⟨-, -, hfound⟩ := field_found_iff_spelled hplain
  obtain ⟨-, -, hlost⟩ := field_found_iff_spelled hpadded
  obtain ⟨enriched, hcompute, hiff⟩ := hfound weeklyMeans bothMeans [] (by decide) twoBars
  obtain ⟨enriched', hcompute', hiff'⟩ := hlost weeklyMeans bothMeans [] (by decide) twoBars
  obtain rfl := Except.ok.inj (hcompute.symm.trans hcompute')
  refine ⟨hplain, hpadded, enriched, hcompute, hiff.2 (by decide), ?_⟩
  exact Bool.eq_false_iff.2 fun h => absurd (hiff'.1 h) (by decide)

/-- The specification found for a name with a zero in front writes another column, and no specification writes this one. -/
theorem leading_zero_is_lost :
    Spec.forField? "ma05" = some (.ma 5) ∧ (Spec.ma 5).outputs = .ok ["ma5"] ∧ ∀ t : Spec, ¬t.Writes "ma05" := by
  refine ⟨by decide, by decide, fun t ht => ?_⟩
  exact absurd (Spec.SpelledAsColumn.of_writes ht) (by decide)

end EquityScreen
