import EquityScreen.Proofs.Causality
import EquityScreen.Proofs.Lemmas.Enrichment

/-!
# A series is computed as a whole or not at all

A computation is refused for the first specification that cannot be computed, its parameters before its columns
(`Spec.refusal?`), and then there is no result. Otherwise there is one: the series with the columns of the specifications and
no other change (`Series.EnrichedBy`). No step of it can fail once all specifications are checked (`Series.Sound`): periods are
one at least, the three columns of candles are of one length, and each column that is put in has a number for each day.
Whether any memory holds the rings is another question (`Series.hasRoomFor`).
-/

namespace EquityScreen

namespace Spec

variable {spec : Spec} {s : Series}

/-- Why a specification cannot be computed over a series: its first parameter that is out of range and, only where there is
none, the columns that the series lacks. -/
def refusal? (spec : Spec) (s : Series) : Option IndicatorError :=
  match spec.fault? with
  | some (key, v) => some (.invalidParameter spec.name key v.written)
  | none =>
    let lacking := spec.required.filter (!s.columns.contains ·)
    if lacking = [] then none else some (.missingColumns spec.name lacking s.columns.names)

/-- A specification is an indicator over a series, or it is refused. -/
theorem over_cases (spec : Spec) (s : Series) :
    (∃ i, spec.over s = .ok i) ∧ spec.refusal? s = none ∨ ∃ e, spec.over s = .error e ∧ spec.refusal? s = some e := by
  unfold Spec.over Spec.refusal?
  cases hfault : spec.fault? with
  | some fault =>
    obtain ⟨key, v⟩ := fault
    rw [checked_of_fault hfault]
    exact .inr ⟨_, rfl, rfl⟩
  | none =>
    obtain ⟨i, hi⟩ := exists_checked_iff.2 hfault
    rw [hi]
    by_cases hlacking : spec.required.filter (!s.columns.contains ·) = []
    · exact .inl ⟨⟨i, by simp only [hlacking]; rfl⟩, if_pos hlacking⟩
    · refine .inr ⟨.missingColumns spec.name _ _, ?_, if_neg hlacking⟩
      exact if_neg fun hempty => hlacking (List.isEmpty_iff.1 hempty)

theorem exists_over_iff : (∃ i, spec.over s = .ok i) ↔ spec.refusal? s = none := by
  rcases over_cases spec s with ⟨hi, hnone⟩ | ⟨e, he, hsome⟩
  · exact iff_of_true hi hnone
  · rw [he, hsome]
    exact iff_of_false nofun nofun

theorem over_eq_error_iff {e : IndicatorError} : spec.over s = .error e ↔ spec.refusal? s = some e := by
  rcases over_cases spec s with ⟨⟨i, hi⟩, hnone⟩ | ⟨e', he, hsome⟩
  · rw [hi, hnone]
    exact iff_of_false nofun nofun
  · rw [he, hsome, Except.error.injEq, Option.some.injEq]

end Spec

namespace Series

variable {s : Series} {specs : List Spec}

/-! ## Steps that could fail -/

/-- Each of the columns has a number for each day, so each of them is taken in. -/
theorem foldlM_insert? {columns : List (String × List Float)} (h : ∀ c ∈ columns, c.2.length = s.length) :
    columns.foldlM (fun t c => t.insert? c.1 c.2) s = some (s.insertAll columns) := by
  induction columns generalizing s with
  | nil => rfl
  | cons c rest ih =>
    obtain ⟨hfirst, hrest⟩ := List.forall_mem_cons.1 h
    rw [List.foldlM_cons, insert?, if_pos hfirst]
    exact ih hrest

/-- An even series with the three columns of candles has candles. -/
theorem Even.isSome_candles? (hs : s.Even) (hhigh : s.columns.contains "high" = true)
    (hlow : s.columns.contains "low" = true) :
    (candles? (s.numbers "high") (s.numbers "low") (s.numbers "close")).isSome = true := by
  have hclose : (s.numbers "close").length ≤ s.length := by
    rw [hs.length_numbers]
    split <;> omega
  rw [candles?, hs.length_numbers "high", hs.length_numbers "low", if_pos hhigh, if_pos hlow, if_pos (by simp [hclose])]
  rfl

/-- No step of computing an indicator over a series can fail: there are candles where it reads them, and its rings and means
are of one value at least. -/
structure Sound (s : Series) (i : Indicator) : Prop where
  periods : ∀ n ∈ i.periods, 1 ≤ n
  candles : "high" ∈ i.reads → (candles? (s.numbers "high") (s.numbers "low") (s.numbers "close")).isSome = true

theorem Even.sound (hs : s.Even) {spec : Spec} {i : Indicator} (h : spec.over s = .ok i) : s.Sound i where
  periods := Spec.one_le_of_mem_periods (Spec.over_eq_ok_iff.1 h).1
  candles := by
    intro hhigh
    have hreads := Spec.contains_of_over h
    have hlow : "low" ∈ i.reads := by
      cases i <;> simp_all [Indicator.reads]
    exact hs.isSome_candles? (hreads _ hhigh) (hreads _ hlow)

/-! ## The whole computation -/

/-- The error of a computation is that of the first specification that is refused. -/
theorem compute_eq_error_iff {e : IndicatorError} : s.compute specs = .error e ↔
    ∃ front spec rest, Spec.dedup specs = front ++ spec :: rest ∧ (∀ t ∈ front, t.refusal? s = none) ∧
      spec.refusal? s = some e := by
  have hmap : s.compute specs = .error e ↔ (Spec.dedup specs).mapM (·.over s) = .error e := by
    rw [compute_eq]
    cases (Spec.dedup specs).mapM (Spec.over · s) with
    | error e' => simp [Except.map]
    | ok indicators => exact iff_of_false nofun nofun
  rw [hmap, mapM_eq_error_iff]
  simp only [Spec.exists_over_iff, Spec.over_eq_error_iff]

/-- The series with the columns of some specifications, one number for each day, and no other change. -/
structure EnrichedBy (s : Series) (specs : List Spec) (out : Series) : Prop where
  dates : out.dates = s.dates
  names : ∀ name, name ∈ out.columns.names ↔ name ∈ s.columns.names ∨ ∃ spec ∈ specs, spec.Writes name
  kept : ∀ name, (∀ spec ∈ specs, ¬spec.Writes name) → out.column? name = s.column? name
  prices : ∀ name ∈ ["open", "high", "low", "close"], out.column? name = s.column? name
  even : out.Even

theorem Even.enrichedBy (hs : s.Even) {out : Series} (h : s.compute specs = .ok out) : s.EnrichedBy specs out where
  dates := dates_compute h
  names := by
    intro name
    rw [← Named.contains_iff_mem_names, ← Named.contains_iff_mem_names]
    exact contains_compute_iff h
  kept := fun name hname => column?_compute_of_not_writes h hname
  prices := by
    intro name hname
    have hbar : name ∈ Spec.barColumns := by
      have hsub : ∀ n ∈ ["open", "high", "low", "close"], n ∈ Spec.barColumns := by decide
      exact hsub name hname
    exact column?_compute_of_not_writes h fun _ _ => Spec.not_writes_barColumns hbar
  even := hs.compute h

end Series

/-- A series is computed as a whole or not at all. The computation fails exactly if a specification has a parameter out of
range or lacks a column, and its error is that of the first such specification, its parameters before its columns. Otherwise
there is a result, which has the same days and the columns of the specifications, one number for each day; no other column
changes, and those of the prices never do. Then no step can fail: every indicator is sound over the series, and each column is
taken in although columns of another length would be refused. -/
theorem computed_whole_or_refused {s : Series} (hs : s.Even) (specs : List Spec) :
    (∀ e, s.compute specs = .error e ↔
      ∃ front spec rest, Spec.dedup specs = front ++ spec :: rest ∧ (∀ t ∈ front, t.refusal? s = none) ∧
        spec.refusal? s = some e) ∧
    ((∃ e, s.compute specs = .error e) ↔ ∃ spec ∈ specs, spec.refusal? s ≠ none) ∧
    ((∀ spec ∈ specs, spec.refusal? s = none) →
      ∃ out, s.compute specs = .ok out ∧ s.EnrichedBy specs out ∧
        ∃ indicators, (Spec.dedup specs).mapM (·.over s) = .ok indicators ∧ (∀ i ∈ indicators, s.Sound i) ∧
          (indicators.flatMap (·.columns s)).foldlM (fun t c => t.insert? c.1 c.2) s = some out) := by
  have hresult : (∃ out, s.compute specs = .ok out) ↔ ∀ spec ∈ specs, spec.refusal? s = none := by
    rw [Series.exists_compute_iff]
    exact forall₂_congr fun _ _ => Spec.exists_over_iff
  refine ⟨fun e => Series.compute_eq_error_iff, ?_, fun hspecs => ?_⟩
  · have herror : (∃ e, s.compute specs = .error e) ↔ ¬∃ out, s.compute specs = .ok out := by
      cases s.compute specs <;> simp
    rw [herror, hresult]
    push Not
    rfl
  · obtain ⟨out, hout⟩ := hresult.2 hspecs
    obtain ⟨indicators, hindicators, hcolumns⟩ := Series.compute_eq_ok_iff.1 hout
    refine ⟨out, hout, hs.enrichedBy hout, indicators, hindicators, fun i hi => ?_, ?_⟩
    · obtain ⟨spec, -, hover⟩ := exists_of_mem_mapM hindicators hi
      exact hs.sound hover
    · rw [Series.foldlM_insert?, hcolumns]
      intro c hc
      obtain ⟨i, hi, hc⟩ := List.mem_flatMap.1 hc
      obtain ⟨spec, -, hover⟩ := exists_of_mem_mapM hindicators hi
      exact Indicator.length_of_mem_columns hs (Spec.contains_of_over hover) hc

/-- Two days of which only the closing prices are known. -/
def closesOnly : Series := ⟨[⟨2024, 1, 2⟩, ⟨2024, 1, 3⟩], .ofList [("close", [10.0, 11.0])]⟩

/-- Without highs and lows the mean range is refused, and the moving average with it; alone it is computed. -/
theorem average_without_highs :
    closesOnly.Even ∧
    closesOnly.compute [.ma 2, .atr 14] = .error (.missingColumns .atr ["high", "low"] ["close"]) ∧
    ∃ out, closesOnly.compute [.ma 2] = .ok out ∧ closesOnly.EnrichedBy [.ma 2] out := by
  have heven : closesOnly.Even := by
    unfold Series.Even
    decide +kernel
  refine ⟨heven, ?_, ?_⟩
  · exact ((computed_whole_or_refused heven _).1 _).2 ⟨[.ma 2], .atr 14, [], by rfl, by decide +kernel, by decide +kernel⟩
  · obtain ⟨out, hout, henriched, -⟩ := (computed_whole_or_refused heven [.ma 2]).2.2 (by decide +kernel)
    exact ⟨out, hout, henriched⟩

end EquityScreen
