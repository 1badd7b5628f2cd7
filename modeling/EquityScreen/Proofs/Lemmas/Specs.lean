import Mathlib.Data.List.Induction
import EquityScreen.Indicator.Compute
import EquityScreen.Proofs.Lemmas.Answers
import EquityScreen.Proofs.Lemmas.Maps

/-!
# Specifications and the columns they write

Of several specifications that are the same the first is kept (`Spec.dedup`), and a list in which none is the same as an
earlier one is computed as it stands. Which indicator a specification is, with which parameters, is said once
(`Spec.Checked`); what the indicator writes follows (`Spec.outputs_of_checked`). A period of zero is refused where an indicator
cannot have it (`Indicator.columnsOf_eq`), which no checked period is, so a computation can only fail in its checks
(`Series.compute_eq`). Where no column is written twice the result has every column as it is computed (`Series.exists_compute`).
-/

namespace EquityScreen

namespace Spec

/-! ## Specifications without repetition -/

/-- One more specification is kept unless one that is kept is the same. -/
theorem dedup_concat (specs : List Spec) (s : Spec) :
    dedup (specs ++ [s]) = if (dedup specs).any (same · s) then dedup specs else dedup specs ++ [s] := by
  rw [dedup, List.foldl_append]
  rfl

theorem mem_of_mem_dedup {specs : List Spec} {s : Spec} (h : s ∈ dedup specs) : s ∈ specs := by
  induction specs using List.reverseRecOn with
  | nil => exact h
  | append_singleton rest last ih =>
    rw [dedup_concat] at h
    split at h
    · exact List.mem_append_left _ (ih h)
    · rcases List.mem_append.1 h with h | h
      · exact List.mem_append_left _ (ih h)
      · exact List.mem_append_right _ h

/-- A specification is kept, or one is that is the same. -/
theorem exists_mem_dedup {specs : List Spec} {s : Spec} (h : s ∈ specs) : ∃ t ∈ dedup specs, t = s ∨ t.same s = true := by
  induction specs using List.reverseRecOn with
  | nil => exact absurd h List.not_mem_nil
  | append_singleton rest last ih =>
    rw [dedup_concat]
    rcases List.mem_append.1 h with h | h
    · obtain ⟨t, ht, hts⟩ := ih h
      refine ⟨t, ?_, hts⟩
      split
      · exact ht
      · exact List.mem_append_left _ ht
    · obtain rfl := List.mem_singleton.1 h
      by_cases hsame : (dedup rest).any (same · s) = true
      · rw [if_pos hsame]
        obtain ⟨t, ht, hts⟩ := List.any_eq_true.1 hsame
        exact ⟨t, ht, .inr hts⟩
      · rw [if_neg hsame]
        exact ⟨s, List.mem_append_right _ (List.mem_singleton_self s), .inl rfl⟩

/-- No specification is kept after one that is the same. -/
theorem pairwise_dedup (specs : List Spec) : (dedup specs).Pairwise fun a b => a.same b = false := by
  induction specs using List.reverseRecOn with
  | nil => exact .nil
  | append_singleton rest last ih =>
    rw [dedup_concat]
    split
    · exact ih
    · rename_i hsame
      refine List.pairwise_append.2 ⟨ih, List.pairwise_singleton _ _, fun t ht s hs => ?_⟩
      obtain rfl := List.mem_singleton.1 hs
      exact Bool.eq_false_iff.2 fun hts => hsame (List.any_eq_true.2 ⟨t, ht, hts⟩)

/-- All of the specifications are kept where none is the same as an earlier one. -/
theorem dedup_of_pairwise {specs : List Spec} (h : specs.Pairwise fun a b => a.same b = false) : dedup specs = specs := by
  induction specs using List.reverseRecOn with
  | nil => rfl
  | append_singleton rest last ih =>
    obtain ⟨hrest, -, hlast⟩ := List.pairwise_append.1 h
    rw [dedup_concat, ih hrest, if_neg]
    intro hsame
    obtain ⟨t, ht, hts⟩ := List.any_eq_true.1 hsame
    rw [hlast t ht last (List.mem_singleton_self last)] at hts
    exact Bool.false_ne_true hts

/-! ## Parameters and columns -/

/-- The indicator that a specification is: that of its name, with the parameters that are read of it. -/
inductive Checked (spec : Spec) : Indicator → Prop where
  | ma {n : Nat} (hname : spec.name = .ma) (hn : spec.period "n" 20 = .ok n) : Checked spec (.ma n)
  | ema {n : Nat} (hname : spec.name = .ema) (hn : spec.period "n" 20 = .ok n) : Checked spec (.ema n)
  | macd {fast slow signal : Nat} (hname : spec.name = .macd) (hfast : spec.period "fast" 12 = .ok fast)
    (hslow : spec.period "slow" 26 = .ok slow) (hsignal : spec.period "signal" 9 = .ok signal) :
    Checked spec (.macd fast slow signal)
  | rsi {n : Nat} {m : RsiMethod} (hname : spec.name = .rsi) (hn : spec.period "n" 14 = .ok n) (hm : spec.method = .ok m) :
    Checked spec (.rsi n m)
  | boll {n : Nat} {k : Float} (hname : spec.name = .boll) (hn : spec.period "n" 20 = .ok n)
    (hk : spec.factor "k" 2.0 = .ok k) : Checked spec (.boll n k)
  | atr {n : Nat} (hname : spec.name = .atr) (hn : spec.period "n" 14 = .ok n) : Checked spec (.atr n)
  | kdj {n : Nat} {m1 m2 : Float} (hname : spec.name = .kdj) (hn : spec.period "n" 9 = .ok n)
    (h1 : spec.factor "m1" 3.0 = .ok m1) (h2 : spec.factor "m2" 3.0 = .ok m2) : Checked spec (.kdj n m1 m2)

theorem checked_eq_ok_iff {spec : Spec} {i : Indicator} : spec.checked = .ok i ↔ spec.Checked i := by
  rw [checked]
  constructor
  · intro h
    cases hname : spec.name <;> rw [hname] at h
    case ma =>
      obtain ⟨n, hn, h⟩ := bind_eq_ok h
      exact Except.ok.inj h ▸ .ma hname hn
    case ema =>
      obtain ⟨n, hn, h⟩ := bind_eq_ok h
      exact Except.ok.inj h ▸ .ema hname hn
    case macd =>
      obtain ⟨fast, hfast, h⟩ := bind_eq_ok h
      obtain ⟨slow, hslow, h⟩ := bind_eq_ok h
      obtain ⟨signal, hsignal, h⟩ := bind_eq_ok h
      exact Except.ok.inj h ▸ .macd hname hfast hslow hsignal
    case rsi =>
      obtain ⟨n, hn, h⟩ := bind_eq_ok h
      obtain ⟨m, hm, h⟩ := bind_eq_ok h
      exact Except.ok.inj h ▸ .rsi hname hn hm
    case boll =>
      obtain ⟨n, hn, h⟩ := bind_eq_ok h
      obtain ⟨k, hk, h⟩ := bind_eq_ok h
      exact Except.ok.inj h ▸ .boll hname hn hk
    case atr =>
      obtain ⟨n, hn, h⟩ := bind_eq_ok h
      exact Except.ok.inj h ▸ .atr hname hn
    case kdj =>
      obtain ⟨n, hn, h⟩ := bind_eq_ok h
      obtain ⟨m1, h1, h⟩ := bind_eq_ok h
      obtain ⟨m2, h2, h⟩ := bind_eq_ok h
      exact Except.ok.inj h ▸ .kdj hname hn h1 h2
  · intro h
    cases h with
    | ma hname hn | ema hname hn | atr hname hn =>
      rw [hname, hn]
      rfl
    | rsi hname hn hm =>
      rw [hname, hn, hm]
      rfl
    | boll hname hn hk =>
      rw [hname, hn, hk]
      rfl
    | macd hname hfast hslow hsignal =>
      rw [hname, hfast, hslow, hsignal]
      rfl
    | kdj hname hn h1 h2 =>
      rw [hname, hn, h1, h2]
      rfl

/-- A specification can be computed over a series when its parameters are in range and the series has its columns. -/
theorem over_eq_ok_iff {spec : Spec} {s : Series} {i : Indicator} :
    spec.over s = .ok i ↔ spec.checked = .ok i ∧ ∀ name ∈ spec.required, s.columns.contains name = true := by
  have hmissing : (spec.required.filter (!s.columns.contains ·)).isEmpty = true ↔
      ∀ name ∈ spec.required, s.columns.contains name = true := by
    simp [List.isEmpty_iff, List.filter_eq_nil_iff]
  rw [Spec.over, ← hmissing]
  cases spec.checked with
  | error e => simp [bind, Except.bind]
  | ok i' =>
    show (if _ then Except.ok i' else Except.error _) = Except.ok i ↔ _
    split <;> simp [*]

/-! ## Periods -/

/-- A period that is read is one at least. -/
theorem one_le_of_period {s : Spec} {key : String} {usual n : Nat} (h : s.period key usual = .ok n) (husual : 1 ≤ usual) :
    1 ≤ n := by
  unfold period at h
  split at h
  · obtain rfl := Except.ok.inj h
    exact husual
  · split at h
    · split at h
      · rename_i k _ hk
        obtain rfl := Except.ok.inj h
        exact Nat.le_min_of_le_of_le hk (by decide)
      · exact absurd h nofun
    · exact absurd h nofun
  · exact absurd h nofun

end Spec

/-- The periods of an indicator. -/
def Indicator.periods : Indicator → List Nat
  | .ma n | .ema n | .rsi n _ | .boll n _ | .atr n | .kdj n _ _ => [n]
  | .macd fast slow signal => [fast, slow, signal]

/-- The periods of a specification that is an indicator are one at least. -/
theorem Spec.one_le_of_mem_periods {s : Spec} {i : Indicator} (h : s.checked = .ok i) : ∀ n ∈ i.periods, 1 ≤ n := by
  cases checked_eq_ok_iff.1 h with
  | ma _ hn | ema _ hn | rsi _ hn | boll _ hn | atr _ hn | kdj _ hn =>
    exact List.forall_mem_singleton.2 (one_le_of_period hn (by decide))
  | macd _ hfast hslow hsignal =>
    intro n hmem
    simp only [Indicator.periods, List.mem_cons, List.not_mem_nil, or_false] at hmem
    rcases hmem with rfl | rfl | rfl
    · exact one_le_of_period hfast (by decide)
    · exact one_le_of_period hslow (by decide)
    · exact one_le_of_period hsignal (by decide)

/-! ## The columns of an indicator -/

/-- The columns of an indicator over a series, whose periods are one at least. -/
def Indicator.columns (s : Series) : Indicator → List (String × List Float)
  | .ma n => [(Spec.columnName "ma" n, movingAverage n (s.numbers "close"))]
  | .ema n => [(Spec.columnName "ema" n, exponentialMean n (s.numbers "close"))]
  | .macd fast slow signal =>
    let m := EquityScreen.macd fast slow signal (s.numbers "close")
    [("dif", m.dif), ("dea", m.dea), ("macd_hist", m.histogram)]
  | .rsi n method => [(Spec.columnName "rsi" n, EquityScreen.rsi n method (s.numbers "close"))]
  | .boll n k =>
    let b := bollinger n k (s.numbers "close")
    [("boll_mid", b.mid), ("boll_upper", b.upper), ("boll_lower", b.lower)]
  | .atr n => [(Spec.columnName "atr" n, averageTrueRange n s.candles)]
  | .kdj n m1 m2 =>
    let lines := EquityScreen.kdj n m1 m2 s.candles
    [("kdj_k", lines.map (·.k)), ("kdj_d", lines.map (·.d)), ("kdj_j", lines.map (·.j))]

/-- The periods that an indicator cannot have zero, and the name in which it is refused: the means of convergence and divergence
are refused in their own. -/
def Indicator.needed : Indicator → IndicatorName × List Nat
  | .ma n => (.ma, [n])
  | .ema n => (.ema, [n])
  | .macd fast slow signal => (.ema, [fast, slow, signal])
  | .rsi n .sma => (.rsi, [n])
  | .rsi .. => (.rsi, [])
  | .boll n _ => (.boll, [n])
  | .atr n => (.atr, [n])
  | .kdj n _ _ => (.kdj, [n])

theorem IndicatorName.withPeriod_of_ne {β : Type} {n : Nat} (h : n ≠ 0) (name : IndicatorName) (values : β) :
    name.withPeriod n values = .ok values := if_neg h

/-- An indicator is refused where it cannot have a period of zero, and has its columns else. -/
theorem Indicator.columnsOf_eq (i : Indicator) (s : Series) :
    i.columnsOf s = if 0 ∈ i.needed.2 then .error (.invalidParameter i.needed.1 "n" "0") else .ok (i.columns s) := by
  cases i with
  | ma n | ema n | boll n k | atr n | kdj n m1 m2 =>
    rcases eq_or_ne n 0 with rfl | hn
    · rfl
    · rw [if_neg (by simpa [needed] using hn.symm)]
      simp only [columnsOf, movingAverageOf, exponentialMeanOf, bollingerOf, averageTrueRangeOf, kdjOf,
        IndicatorName.withPeriod_of_ne hn]
      rfl
  | rsi n method =>
    cases method with
    | ema | china => rfl
    | sma =>
      rcases eq_or_ne n 0 with rfl | hn
      · rfl
      · rw [if_neg (by simpa [needed] using hn.symm)]
        simp only [columnsOf, rsiOf, IndicatorName.withPeriod_of_ne hn]
        rfl
  | macd fast slow signal =>
    rcases eq_or_ne fast 0 with rfl | hfast
    · rfl
    rcases eq_or_ne slow 0 with rfl | hslow
    · rw [if_pos (by simp [needed])]
      simp only [columnsOf, macdOf, exponentialMeanOf, IndicatorName.withPeriod_of_ne hfast]
      rfl
    rcases eq_or_ne signal 0 with rfl | hsignal
    · rw [if_pos (by simp [needed])]
      simp only [columnsOf, macdOf, exponentialMeanOf, IndicatorName.withPeriod_of_ne hfast,
        IndicatorName.withPeriod_of_ne hslow]
      rfl
    · rw [if_neg (by simp [needed, hfast.symm, hslow.symm, hsignal.symm])]
      simp only [columnsOf, macdOf, exponentialMeanOf, IndicatorName.withPeriod_of_ne hfast,
        IndicatorName.withPeriod_of_ne hslow, IndicatorName.withPeriod_of_ne hsignal]
      rfl

/-- A period of zero for the slow mean is refused in the name of the mean. -/
example (s : Series) : (Indicator.macd 12 0 9).columnsOf s = .error (.invalidParameter .ema "n" "0") := rfl

/-- An indicator with checked parameters has its columns. -/
theorem Indicator.columnsOf_of_checked {spec : Spec} {i : Indicator} (h : spec.checked = .ok i) (s : Series) :
    i.columnsOf s = .ok (i.columns s) := by
  have hneeded : i.needed.2 ⊆ i.periods := by
    cases i with
    | rsi n method => cases method <;> simp [needed, periods]
    | _ => exact List.Subset.refl _
  rw [columnsOf_eq, if_neg fun hzero => absurd (Spec.one_le_of_mem_periods h 0 (hneeded hzero)) (by decide)]

/-- The columns that an indicator writes. -/
def Indicator.outputs : Indicator → List String
  | .ma n => [Spec.columnName "ma" n]
  | .ema n => [Spec.columnName "ema" n]
  | .macd .. => ["dif", "dea", "macd_hist"]
  | .rsi n _ => [Spec.columnName "rsi" n]
  | .boll .. => ["boll_mid", "boll_upper", "boll_lower"]
  | .atr n => [Spec.columnName "atr" n]
  | .kdj .. => ["kdj_k", "kdj_d", "kdj_j"]

@[simp] theorem Indicator.map_fst_columns (i : Indicator) (s : Series) : (i.columns s).map (·.1) = i.outputs := by
  cases i <;> rfl

/-- An indicator writes the columns that its specification names. -/
theorem Spec.outputs_of_checked {spec : Spec} {i : Indicator} (h : spec.checked = .ok i) : spec.outputs = .ok i.outputs := by
  rw [outputs]
  cases checked_eq_ok_iff.1 h with
  | ma hname hn | ema hname hn | rsi hname hn | atr hname hn =>
    rw [hname, hn]
    rfl
  | macd hname | boll hname | kdj hname =>
    rw [hname]
    rfl

/-- A name that carries a period has a digit, so it is none of names without digits. -/
theorem Spec.columnName_not_mem {names : List String} (h : (names.all fun name => name.toList.all (!·.isDigit)) = true)
    (stem : String) (n : Nat) : Spec.columnName stem n ∉ names := by
  intro hmem
  obtain ⟨c, hc⟩ := List.exists_mem_of_ne_nil (Nat.toDigits 10 n) Nat.toDigits_ne_nil
  have hin : c ∈ (Spec.columnName stem n).toList := by
    rw [Spec.columnName, String.toList_append]
    refine List.mem_append_right _ ?_
    show c ∈ n.repr.toList
    rwa [Nat.toList_repr]
  have hdigit : c.isDigit = true := Nat.isDigit_of_mem_toDigits (by decide) (by decide) hc
  have hnone : (!c.isDigit) = true := List.all_eq_true.1 (List.all_eq_true.1 h _ hmem) c hin
  rw [hdigit] at hnone
  exact absurd hnone (by decide)

/-- The columns whose names carry no period. -/
def Indicator.lineNames : List String :=
  ["dif", "dea", "macd_hist", "boll_mid", "boll_upper", "boll_lower", "kdj_k", "kdj_d", "kdj_j"]

/-- An indicator writes none of names without digits that are not those of its lines. -/
theorem Indicator.not_mem_of_mem_outputs {names : List String}
    (h : (names.all fun name => name.toList.all (!·.isDigit)) = true) (hlines : ∀ name ∈ lineNames, name ∉ names)
    (i : Indicator) : ∀ name ∈ i.outputs, name ∉ names := by
  cases i with
  | ma n | ema n | rsi n _ | atr n => exact List.forall_mem_singleton.2 (Spec.columnName_not_mem h _ _)
  | macd | boll | kdj =>
    intro name hname
    refine hlines name ?_
    simp only [outputs, List.mem_cons, List.not_mem_nil, or_false] at hname
    rcases hname with rfl | rfl | rfl <;> simp [lineNames]

/-! ## Columns of the result -/

namespace Series

theorem columns_insertAll (s : Series) (columns : List (String × List Float)) :
    (s.insertAll columns).columns = columns.foldl (fun m c => m.insert c.1 c.2) s.columns := by
  induction columns generalizing s with
  | nil => rfl
  | cons c rest ih => exact ih (s.insert c.1 c.2)

/-- Columns with different names put into a series are all in it. -/
theorem column?_insertAll {columns : List (String × List Float)} (h : (columns.map (·.1)).Nodup) {c : String × List Float}
    (hc : c ∈ columns) (s : Series) : (s.insertAll columns).column? c.1 = some c.2 := by
  rw [column?, columns_insertAll]
  exact Named.get?_foldl_insert_of_mem h hc s.columns

/-- No indicator with checked parameters is refused, so a computation is its check and the columns put into the series. -/
theorem compute_eq (s : Series) (specs : List Spec) :
    s.compute specs =
      ((Spec.dedup specs).mapM (Spec.over · s)).map fun indicators => s.insertAll (indicators.flatMap (·.columns s)) := by
  rw [compute]
  cases h : (Spec.dedup specs).mapM (·.over s) with
  | error e => rfl
  | ok indicators =>
    have hcolumns : ∀ i ∈ indicators, i.columnsOf s = .ok (i.columns s) := by
      intro i hi
      obtain ⟨spec, -, hover⟩ := exists_of_mem_mapM h hi
      exact Indicator.columnsOf_of_checked (Spec.over_eq_ok_iff.1 hover).1 s
    show (indicators.mapM (·.columnsOf s) >>= fun columns => Except.ok (s.insertAll columns.flatten)) = _
    rw [mapM_of_forall hcolumns]
    rfl

theorem compute_eq_ok_iff {s out : Series} {specs : List Spec} : s.compute specs = .ok out ↔
    ∃ indicators, (Spec.dedup specs).mapM (·.over s) = .ok indicators ∧
      s.insertAll (indicators.flatMap (·.columns s)) = out := by
  rw [compute_eq]
  constructor
  · exact map_eq_ok
  · rintro ⟨indicators, hindicators, rfl⟩
    rw [hindicators]
    rfl

/-- Where none of the specifications is the same as an earlier one, each of them can be computed and no column is written
twice, the series is computed, and has every column of every specification as it is computed. -/
theorem exists_compute {s : Series} {specs : List Spec} (hspecs : specs.Pairwise fun a b => a.same b = false)
    {indicators : List Indicator} (h : specs.mapM (·.over s) = .ok indicators)
    (hnodup : (indicators.flatMap Indicator.outputs).Nodup) :
    ∃ out, s.compute specs = .ok out ∧ ∀ i ∈ indicators, ∀ c ∈ i.columns s, out.column? c.1 = some c.2 := by
  have hcompute : s.compute specs = .ok (s.insertAll (indicators.flatMap (·.columns s))) := by
    rw [compute_eq, Spec.dedup_of_pairwise hspecs, h]
    rfl
  have hnames : ((indicators.flatMap (·.columns s)).map (·.1)).Nodup := by
    simpa only [List.map_flatMap, Indicator.map_fst_columns] using hnodup
  exact ⟨_, hcompute, fun i hi c hc => column?_insertAll hnames (List.mem_flatMap.2 ⟨i, hi, hc⟩) s⟩

end Series

end EquityScreen
