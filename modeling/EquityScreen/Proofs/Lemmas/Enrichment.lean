import EquityScreen.Proofs.Lemmas.Parameters

/-!
# What a computation puts into a series

Over a series a specification gives columns (`Spec.Gives`), which do not depend on other specifications. A computation needs
each of its specifications to be an indicator over the series (`Series.exists_compute_iff`). The result is told by look-ups: a
column that no specification writes is as it was (`column?_compute_of_not_writes`), and one that is given with the same numbers
by all that write it has these numbers (`column?_compute_of_gives`). Of the columns that indicators read none is ever written
(`Spec.not_writes_barColumns`).
-/

namespace EquityScreen

namespace Spec

variable {spec t : Spec} {s : Series} {name : String}

/-- The specification writes a column of this name. -/
def Writes (spec : Spec) (name : String) : Prop := ∃ names, spec.outputs = .ok names ∧ name ∈ names

/-- Over a series the specification gives a column of this name with these numbers. -/
def Gives (spec : Spec) (s : Series) (name : String) (values : List Float) : Prop :=
  ∃ i, spec.over s = .ok i ∧ (name, values) ∈ i.columns s

theorem writes_iff (h : spec.outputs = .ok names) : spec.Writes name ↔ name ∈ names := by
  constructor
  · rintro ⟨names', hnames', hname⟩
    rwa [Except.ok.inj (h.symm.trans hnames')]
  · intro hname
    exact ⟨names, h, hname⟩

/-- An indicator over a series writes its columns. -/
theorem writes_iff_of_over {i : Indicator} (h : spec.over s = .ok i) : spec.Writes name ↔ name ∈ i.outputs :=
  writes_iff (outputs_of_checked (over_eq_ok_iff.1 h).1)

theorem Gives.writes {values : List Float} (h : spec.Gives s name values) : spec.Writes name := by
  obtain ⟨i, hi, hmem⟩ := h
  rw [writes_iff_of_over hi, ← i.map_fst_columns s]
  exact List.mem_map_of_mem hmem

/-- What a specification over a series writes it gives. -/
theorem Writes.exists_gives (h : spec.Writes name) {i : Indicator} (hi : spec.over s = .ok i) :
    ∃ values, spec.Gives s name values := by
  rw [writes_iff_of_over hi, ← i.map_fst_columns s] at h
  obtain ⟨c, hc, rfl⟩ := List.mem_map.1 h
  exact ⟨c.2, i, hi, hc⟩

/-- Specifications that are the same are the same indicator over any series. -/
theorem over_of_same (h : spec.same t = true) {i : Indicator} (hi : spec.over s = .ok i) : t.over s = .ok i := by
  obtain ⟨hchecked, hrequired⟩ := over_eq_ok_iff.1 hi
  have hsame : t.required = spec.required := by rw [required, required, name_of_same h]
  exact over_eq_ok_iff.2 ⟨checked_of_same h hchecked, hsame ▸ hrequired⟩

/-- The stems of the columns that carry a period, each with the period there is when none is given. -/
def periodStems : List (String × Nat) := [("ma", 20), ("ema", 20), ("rsi", 14), ("atr", 14)]

/-- What a specification writes is the line of an indicator, or a stem with the period behind it. -/
theorem Writes.line_or_period (h : spec.Writes name) : name ∈ Indicator.lineNames ∨
    ∃ p ∈ periodStems, ∃ n, spec.period "n" p.2 = .ok n ∧ name = columnName p.1 n := by
  obtain ⟨names, hnames, hname⟩ := h
  have hperiod (p : String × Nat) (hp : p ∈ periodStems)
      (hnames : (do return [columnName p.1 (← spec.period "n" p.2)]) = Except.ok names) :
      ∃ p ∈ periodStems, ∃ n, spec.period "n" p.2 = .ok n ∧ name = columnName p.1 n := by
    obtain ⟨n, hn, h⟩ := bind_eq_ok hnames
    obtain rfl := Except.ok.inj h
    exact ⟨p, hp, n, hn, List.mem_singleton.1 hname⟩
  unfold outputs at hnames
  cases hs : spec.name <;> rw [hs] at hnames
  case ma => exact .inr (hperiod ("ma", 20) (by simp [periodStems]) hnames)
  case ema => exact .inr (hperiod ("ema", 20) (by simp [periodStems]) hnames)
  case rsi => exact .inr (hperiod ("rsi", 14) (by simp [periodStems]) hnames)
  case atr => exact .inr (hperiod ("atr", 14) (by simp [periodStems]) hnames)
  case macd | boll | kdj =>
    obtain rfl := Except.ok.inj hnames
    simp only [List.mem_cons, List.not_mem_nil, or_false] at hname
    rcases hname with rfl | rfl | rfl <;> exact .inl (by simp [Indicator.lineNames])

/-- The columns of bars. -/
def barColumns : List String := ["open", "high", "low", "close", "volume", "amount", "pct_chg"]

/-- No specification writes a column of bars. -/
theorem not_writes_barColumns (hname : name ∈ barColumns) : ¬spec.Writes name := by
  intro h
  have hdigitless : (barColumns.all fun name => name.toList.all (!·.isDigit)) = true := rfl
  have hlines : ∀ n ∈ Indicator.lineNames, n ∉ barColumns := by decide
  rcases h.line_or_period with hline | ⟨p, -, n, -, rfl⟩
  · exact hlines name hline hname
  · exact columnName_not_mem hdigitless p.1 n hname

end Spec

/-- An indicator has one column of each name that it writes. -/
theorem Indicator.nodup_outputs (i : Indicator) : i.outputs.Nodup := by
  cases i with
  | ma n | ema n | rsi n _ | atr n => exact List.nodup_singleton _
  | macd fast slow signal => exact (by decide : ["dif", "dea", "macd_hist"].Nodup)
  | boll n k => exact (by decide : ["boll_mid", "boll_upper", "boll_lower"].Nodup)
  | kdj n m1 m2 => exact (by decide : ["kdj_k", "kdj_d", "kdj_j"].Nodup)

namespace Series

variable {s out : Series} {specs : List Spec} {name : String}

/-! ## When there is a result -/

/-- A computation has a result when each specification is an indicator over the series, those that are not kept included. -/
theorem exists_compute_iff : (∃ out, s.compute specs = .ok out) ↔ ∀ spec ∈ specs, ∃ i, spec.over s = .ok i := by
  constructor
  · rintro ⟨out, h⟩ spec hspec
    obtain ⟨indicators, hindicators, -⟩ := compute_eq_ok_iff.1 h
    have hkept : ∀ t ∈ Spec.dedup specs, ∃ i, t.over s = .ok i := exists_of_mapM hindicators
    obtain ⟨t, ht, heq | hsame⟩ := Spec.exists_mem_dedup hspec
    · exact heq ▸ hkept t ht
    · obtain ⟨i, hi⟩ := hkept t ht
      exact ⟨i, Spec.over_of_same hsame hi⟩
  · intro h
    obtain ⟨indicators, hindicators⟩ := exists_mapM fun t ht => h t (Spec.mem_of_mem_dedup ht)
    exact ⟨_, compute_eq_ok_iff.2 ⟨indicators, hindicators, rfl⟩⟩

/-! ## What the result holds -/

@[simp] theorem dates_insertAll (s : Series) (columns : List (String × List Float)) : (s.insertAll columns).dates = s.dates := by
  induction columns generalizing s with
  | nil => rfl
  | cons c rest ih => exact ih (s.insert c.1 c.2)

theorem dates_compute (h : s.compute specs = .ok out) : out.dates = s.dates := by
  obtain ⟨indicators, -, rfl⟩ := compute_eq_ok_iff.1 h
  exact dates_insertAll s _

/-- The columns put into the series are those that its specifications give. -/
theorem mem_columns_iff {indicators : List Indicator} (h : (Spec.dedup specs).mapM (·.over s) = .ok indicators)
    {values : List Float} :
    (name, values) ∈ indicators.flatMap (·.columns s) ↔ ∃ spec ∈ specs, spec.Gives s name values := by
  rw [List.mem_flatMap]
  constructor
  · rintro ⟨i, hi, hmem⟩
    obtain ⟨spec, hspec, hover⟩ := exists_of_mem_mapM h hi
    exact ⟨spec, Spec.mem_of_mem_dedup hspec, i, hover, hmem⟩
  · rintro ⟨spec, hspec, i, hi, hmem⟩
    obtain ⟨t, ht, heq | hsame⟩ := Spec.exists_mem_dedup hspec
    · exact ⟨i, mem_of_mapM h ht (heq ▸ hi), hmem⟩
    · obtain ⟨j, hj⟩ := exists_of_mapM h t ht
      obtain rfl := Except.ok.inj ((Spec.over_of_same hsame hj).symm.trans hi)
      exact ⟨j, mem_of_mapM h ht hj, hmem⟩

/-- A column that no specification writes is as it was. -/
theorem column?_compute_of_not_writes (h : s.compute specs = .ok out) (hname : ∀ spec ∈ specs, ¬spec.Writes name) :
    out.column? name = s.column? name := by
  obtain ⟨indicators, hindicators, rfl⟩ := compute_eq_ok_iff.1 h
  rw [column?, columns_insertAll]
  refine Named.get?_foldl_insert_of_not_mem (fun hmem => ?_) s.columns
  obtain ⟨⟨_, values⟩, hc, rfl⟩ := List.mem_map.1 hmem
  obtain ⟨spec, hspec, hgives⟩ := (mem_columns_iff hindicators).1 hc
  exact hname spec hspec hgives.writes

/-- A column that is given, with the same numbers by all specifications that give it, has these numbers. -/
theorem column?_compute_of_gives (h : s.compute specs = .ok out) {spec : Spec} (hspec : spec ∈ specs) {values : List Float}
    (hgives : spec.Gives s name values) (hone : ∀ t ∈ specs, ∀ values', t.Gives s name values' → values' = values) :
    out.column? name = some values := by
  obtain ⟨indicators, hindicators, rfl⟩ := compute_eq_ok_iff.1 h
  have hmem := (mem_columns_iff hindicators).2 ⟨spec, hspec, hgives⟩
  rw [column?, columns_insertAll, Named.get?_foldl_insert, Named.find?_reverse_of_forall hmem, Option.some_or]
  intro values' hmem'
  obtain ⟨t, ht, hgives'⟩ := (mem_columns_iff hindicators).1 hmem'
  exact hone t ht values' hgives'

/-- The columns of the result are those there were and those that are written. -/
theorem contains_compute_iff (h : s.compute specs = .ok out) :
    out.columns.contains name = true ↔ s.columns.contains name = true ∨ ∃ spec ∈ specs, spec.Writes name := by
  have hover := exists_compute_iff.1 ⟨out, h⟩
  obtain ⟨indicators, hindicators, rfl⟩ := compute_eq_ok_iff.1 h
  rw [columns_insertAll, Named.contains_foldl_insert, List.mem_map]
  refine or_congr_right ⟨?_, ?_⟩
  · rintro ⟨⟨_, values⟩, hc, rfl⟩
    obtain ⟨spec, hspec, hgives⟩ := (mem_columns_iff hindicators).1 hc
    exact ⟨spec, hspec, hgives.writes⟩
  · rintro ⟨spec, hspec, hwrites⟩
    obtain ⟨i, hi⟩ := hover spec hspec
    obtain ⟨values, hgives⟩ := hwrites.exists_gives hi
    exact ⟨(name, values), (mem_columns_iff hindicators).2 ⟨spec, hspec, hgives⟩, rfl⟩

end Series

end EquityScreen
