import EquityScreen.Proofs.Lemmas.Records
import EquityScreen.Proofs.Lemmas.Specs

/-!
# No indicator looks ahead

What is computed for the first days of a series is computed of these days alone. An indicator is put together from passes over
the days, and each of them is causal: it gives one value for each day, and to the first days it gives what it would give if
there were no others (`Causal`). So the columns of a series that is cut are the cut columns of the series
(`compute_take_eq`).
-/

namespace EquityScreen

/-! ## Causal functions of the days -/

section Causal

variable {α β γ δ σ : Type}

/-- One value for each day, and those of the first days do not depend on the days that follow. -/
structure Causal (f : List α → List β) : Prop where
  length_eq (xs : List α) : (f xs).length = xs.length
  take_eq (m : Nat) (xs : List α) : f (xs.take m) = (f xs).take m

namespace Causal

/-- A pass over the days, with the state it carries from day to day. -/
theorem scan (step : σ → α → σ × β) (s : σ) : Causal (scan step s) :=
  ⟨length_scan step s, scan_take step s⟩

/-- One value made of the value of the day. -/
theorem map (f : α → β) : Causal (List.map f) :=
  ⟨fun _ => List.length_map f, fun _ _ => List.map_take⟩

/-- One after the other. -/
theorem comp {g : List β → List γ} {f : List α → List β} (hg : Causal g) (hf : Causal f) : Causal fun xs => g (f xs) where
  length_eq xs := (hg.length_eq _).trans (hf.length_eq xs)
  take_eq m xs := by rw [hf.take_eq, hg.take_eq]

/-- One value made of two values of the day. -/
theorem zipWith {f : List α → List β} {g : List α → List γ} (h : β → γ → δ) (hf : Causal f) (hg : Causal g) :
    Causal fun xs => List.zipWith h (f xs) (g xs) where
  length_eq xs := by rw [List.length_zipWith, hf.length_eq, hg.length_eq, Nat.min_self]
  take_eq m xs := by rw [hf.take_eq, hg.take_eq, List.take_zipWith]

end Causal

end Causal

/-! ## The indicators -/

section Indicators

variable {α : Type} [Quantity α]

theorem causal_percentChange : Causal (percentChange (α := α)) := .scan _ _

theorem causal_rollingMean (n least : Nat) : Causal (rollingMean (α := α) n least) := .scan _ _

theorem causal_rollingDeviation (n : Nat) : Causal (rollingDeviation (α := α) n) := .scan _ _

theorem causal_exponentialMean (n : Nat) : Causal (exponentialMean (α := α) n) := .scan _ _

theorem causal_kdj (n : Nat) (m1 m2 : α) : Causal (kdj n m1 m2) := .scan _ _

theorem causal_averageTrueRange (n : Nat) : Causal (averageTrueRange (α := α) n) :=
  (causal_rollingMean n n).comp (.scan trueRangeStep none)

/-- Every smoothing carries its mean, or its sums, from day to day. -/
theorem causal_smooth (method : RsiMethod) (n : Nat) : Causal (method.smooth (α := α) n) := by
  cases method with
  | ema => exact .scan _ _
  | sma => exact causal_rollingMean n 1
  | china => exact .scan _ _

/-- Gains and losses are smoothed side by side. -/
theorem causal_rsi (n : Nat) (method : RsiMethod) : Causal (rsi (α := α) n method) := by
  have hside (side : α × α → α) : Causal fun close => method.smooth n ((gainsLosses close).map side) :=
    (causal_smooth method n).comp ((Causal.map side).comp (.scan gainLossStep none))
  exact .zipWith strength (hside (·.1)) (hside (·.2))

section Macd

variable (fast slow signal : Nat)

theorem causal_dif : Causal fun close : List α => (macd fast slow signal close).dif :=
  .zipWith _ (causal_exponentialMean fast) (causal_exponentialMean slow)

theorem causal_dea : Causal fun close : List α => (macd fast slow signal close).dea :=
  (causal_exponentialMean signal).comp (causal_dif fast slow signal)

theorem causal_histogram : Causal fun close : List α => (macd fast slow signal close).histogram :=
  .zipWith _ (causal_dif fast slow signal) (causal_dea fast slow signal)

end Macd

section Bands

variable (n : Nat) (k : α)

theorem causal_mid : Causal fun close => (bollinger n k close).mid := causal_rollingMean n 1

theorem causal_upper : Causal fun close => (bollinger n k close).upper :=
  .zipWith _ (causal_rollingMean n 1) (causal_rollingDeviation n)

theorem causal_lower : Causal fun close => (bollinger n k close).lower :=
  .zipWith _ (causal_rollingMean n 1) (causal_rollingDeviation n)

end Bands

end Indicators

/-! ## A series cut to its first days -/

namespace Series

variable {s : Series}

/-- The first days of a series. -/
def take (s : Series) (m : Nat) : Series := ⟨s.dates.take m, s.columns.map (List.take m)⟩

theorem length_take (s : Series) (m : Nat) : (s.take m).length = min m s.length := List.length_take

@[simp] theorem column?_take (s : Series) (m : Nat) (name : String) :
    (s.take m).column? name = (s.column? name).map (List.take m) := Named.get?_map _ _ _

@[simp] theorem contains_take (s : Series) (m : Nat) : (s.take m).columns.contains = s.columns.contains :=
  funext (Named.contains_map _ _)

@[simp] theorem names_take (s : Series) (m : Nat) : (s.take m).columns.names = s.columns.names := Named.names_map _ _

theorem insert_take (s : Series) (m : Nat) (name : String) (xs : List Float) :
    (s.insert name xs).take m = (s.take m).insert name (xs.take m) :=
  congrArg (Series.mk _) (Named.map_insert _ _ _ _)

theorem withChange_take (s : Series) (m : Nat) : (s.take m).withChange = s.withChange.take m := by
  unfold withChange
  rw [column?_take]
  cases s.column? "close" with
  | none => rfl
  | some close => exact (congrArg _ (causal_percentChange.take_eq m close)).trans (insert_take s m "pct_chg" _).symm

@[simp] theorem numbers_take (s : Series) (m : Nat) (name : String) : (s.take m).numbers name = (s.numbers name).take m := by
  rw [numbers, numbers, column?_take]
  cases s.column? name <;> simp

theorem insertAll_take (s : Series) (m : Nat) (columns : List (String × List Float)) :
    (s.insertAll columns).take m = (s.take m).insertAll (columns.map fun c => (c.1, c.2.take m)) := by
  induction columns generalizing s with
  | nil => rfl
  | cons c rest ih =>
    have hfirst := ih (s.insert c.1 c.2)
    rw [insert_take] at hfirst
    exact hfirst

/-! ## Even series -/

theorem even_iff : s.Even ↔ ∀ name xs, s.column? name = some xs → xs.length = s.length := by
  constructor
  · intro h name xs hxs
    exact h _ ((Named.get?_eq_some_iff _ _ _).1 hxs)
  · rintro h ⟨name, xs⟩ he
    exact h name xs ((Named.get?_eq_some_iff _ _ _).2 he)

theorem Even.take (hs : s.Even) (m : Nat) : (s.take m).Even := by
  refine even_iff.2 fun name xs hxs => ?_
  rw [column?_take] at hxs
  obtain ⟨ys, hys, rfl⟩ := Option.map_eq_some_iff.1 hxs
  rw [List.length_take, length_take, even_iff.1 hs name ys hys]

theorem Even.insert (hs : s.Even) {name : String} {xs : List Float} (h : xs.length = s.length) : (s.insert name xs).Even := by
  refine even_iff.2 fun n ys hys => ?_
  have hfound : (if n = name then some xs else s.column? n) = some ys := (Named.get?_insert _ _ _ _).symm.trans hys
  split at hfound
  · obtain rfl := Option.some.inj hfound
    exact h
  · exact even_iff.1 hs n ys hfound

theorem Even.insertAll (hs : s.Even) {columns : List (String × List Float)} (h : ∀ c ∈ columns, c.2.length = s.length) :
    (s.insertAll columns).Even := by
  induction columns generalizing s with
  | nil => exact hs
  | cons c rest ih =>
    exact ih (hs.insert (h c List.mem_cons_self)) fun c' hc' => h c' (List.mem_cons_of_mem _ hc')

/-- A column of an even series has a number for each day, and one that is lacking has none. -/
theorem Even.length_numbers (hs : s.Even) (name : String) :
    (s.numbers name).length = if s.columns.contains name then s.length else 0 := by
  rw [numbers, Named.contains_eq_isSome]
  cases hxs : s.column? name with
  | none =>
    rw [column?] at hxs
    rw [hxs]
    rfl
  | some xs =>
    rw [column?] at hxs
    rw [hxs]
    exact even_iff.1 hs name xs hxs

/-- The candles of an even series are of its three columns, and there are none where one of these is lacking. -/
theorem Even.candles_eq (hs : s.Even) :
    s.candles = ((s.numbers "high").zip ((s.numbers "low").zip (s.numbers "close"))).map fun (h, l, c) => ⟨h, l, c⟩ := by
  have hhigh := hs.length_numbers "high"
  have hlow := hs.length_numbers "low"
  have hclose := hs.length_numbers "close"
  unfold candles candles?
  split
  · rfl
  · rename_i hlacking
    rw [Bool.and_eq_true, decide_eq_true_iff, decide_eq_true_iff] at hlacking
    symm
    rw [Option.getD_none, List.map_eq_nil_iff, ← List.length_eq_zero_iff, List.length_zip, List.length_zip]
    split at hhigh <;> split at hlow <;> split at hclose <;> omega

theorem Even.candles_take (hs : s.Even) (m : Nat) : (s.take m).candles = s.candles.take m := by
  rw [hs.candles_eq, (hs.take m).candles_eq]
  simp only [numbers_take, ← List.map_take, List.zip, ← List.take_zipWith]

end Series

/-! ## Indicators over a series -/

namespace Indicator

/-- The columns that an indicator reads. -/
def reads : Indicator → List String
  | .atr _ | .kdj .. => ["high", "low", "close"]
  | _ => ["close"]

/-- The columns of an indicator are causal functions of the closing prices, or of the candles. -/
theorem columns_eq (i : Indicator) :
    (∃ fs : List (String × (List Float → List Float)), (∀ f ∈ fs, Causal f.2) ∧
        ∀ s, i.columns s = fs.map fun f => (f.1, f.2 (s.numbers "close"))) ∨
      "high" ∈ i.reads ∧ "low" ∈ i.reads ∧
        ∃ fs : List (String × (List (Candle Float) → List Float)), (∀ f ∈ fs, Causal f.2) ∧
          ∀ s, i.columns s = fs.map fun f => (f.1, f.2 s.candles) := by
  cases i with
  | ma n =>
    exact .inl ⟨[(Spec.columnName "ma" n, movingAverage n)], List.forall_mem_singleton.2 (causal_rollingMean n 1), fun _ => rfl⟩
  | ema n =>
    exact .inl ⟨[(Spec.columnName "ema" n, exponentialMean n)], List.forall_mem_singleton.2 (causal_exponentialMean n),
      fun _ => rfl⟩
  | macd fast slow signal =>
    refine .inl ⟨[("dif", fun close => (EquityScreen.macd fast slow signal close).dif),
      ("dea", fun close => (EquityScreen.macd fast slow signal close).dea),
      ("macd_hist", fun close => (EquityScreen.macd fast slow signal close).histogram)], ?_, fun _ => rfl⟩
    simp only [List.forall_mem_cons]
    exact ⟨causal_dif fast slow signal, causal_dea fast slow signal, causal_histogram fast slow signal, List.forall_mem_nil _⟩
  | rsi n method =>
    exact .inl ⟨[(Spec.columnName "rsi" n, EquityScreen.rsi n method)], List.forall_mem_singleton.2 (causal_rsi n method),
      fun _ => rfl⟩
  | boll n k =>
    refine .inl ⟨[("boll_mid", fun close => (bollinger n k close).mid),
      ("boll_upper", fun close => (bollinger n k close).upper),
      ("boll_lower", fun close => (bollinger n k close).lower)], ?_, fun _ => rfl⟩
    simp only [List.forall_mem_cons]
    exact ⟨causal_mid n k, causal_upper n k, causal_lower n k, List.forall_mem_nil _⟩
  | atr n =>
    refine .inr ⟨by simp [reads], by simp [reads], [(Spec.columnName "atr" n, averageTrueRange n)], ?_, fun _ => rfl⟩
    exact List.forall_mem_singleton.2 (causal_averageTrueRange n)
  | kdj n m1 m2 =>
    have hline (line : Kdj Float → Float) : Causal fun bars => (EquityScreen.kdj n m1 m2 bars).map line :=
      (Causal.map line).comp (causal_kdj n m1 m2)
    refine .inr ⟨by simp [reads], by simp [reads], [("kdj_k", fun bars => (EquityScreen.kdj n m1 m2 bars).map (·.k)),
      ("kdj_d", fun bars => (EquityScreen.kdj n m1 m2 bars).map (·.d)),
      ("kdj_j", fun bars => (EquityScreen.kdj n m1 m2 bars).map (·.j))], ?_, fun _ => rfl⟩
    simp only [List.forall_mem_cons]
    exact ⟨hline _, hline _, hline _, List.forall_mem_nil _⟩

/-- The columns of an indicator over the first days are the first values of its columns. -/
theorem columns_take {s : Series} (hs : s.Even) (m : Nat) (i : Indicator) :
    i.columns (s.take m) = (i.columns s).map fun c => (c.1, c.2.take m) := by
  rcases i.columns_eq with ⟨fs, hfs, hcolumns⟩ | ⟨-, -, fs, hfs, hcolumns⟩
  · rw [hcolumns, hcolumns, List.map_map]
    exact List.map_congr_left fun f hf => by rw [Series.numbers_take, (hfs f hf).take_eq]; rfl
  · rw [hcolumns, hcolumns, List.map_map]
    exact List.map_congr_left fun f hf => by rw [hs.candles_take, (hfs f hf).take_eq]; rfl

/-- Over an even series that has what it reads an indicator gives a number for each day. -/
theorem length_of_mem_columns {s : Series} (hs : s.Even) {i : Indicator} (hi : ∀ name ∈ i.reads, s.columns.contains name = true)
    {c : String × List Float} (hc : c ∈ i.columns s) : c.2.length = s.length := by
  have hnumbers : ∀ name ∈ i.reads, (s.numbers name).length = s.length := by
    intro name hname
    rw [hs.length_numbers, hi name hname, if_pos rfl]
  have hclose := hnumbers "close" (by cases i <;> simp [reads])
  rcases i.columns_eq with ⟨fs, hfs, hcolumns⟩ | ⟨hhigh, hlow, fs, hfs, hcolumns⟩
  · rw [hcolumns] at hc
    obtain ⟨f, hf, rfl⟩ := List.mem_map.1 hc
    exact ((hfs f hf).length_eq _).trans hclose
  · rw [hcolumns] at hc
    obtain ⟨f, hf, rfl⟩ := List.mem_map.1 hc
    refine ((hfs f hf).length_eq _).trans ?_
    rw [hs.candles_eq, List.length_map, List.length_zip, List.length_zip, hclose, hnumbers _ hhigh, hnumbers _ hlow,
      Nat.min_self, Nat.min_self]

end Indicator

namespace Spec

/-- An indicator reads the columns that its specification requires. -/
theorem reads_of_checked {spec : Spec} {i : Indicator} (h : spec.checked = .ok i) : i.reads = spec.required := by
  rw [required]
  cases checked_eq_ok_iff.1 h with
  | ma hname | ema hname | macd hname | rsi hname | boll hname | atr hname | kdj hname =>
    rw [hname]
    rfl

/-- A series over which an indicator can be computed has what the indicator reads. -/
theorem contains_of_over {spec : Spec} {s : Series} {i : Indicator} (h : spec.over s = .ok i) :
    ∀ name ∈ i.reads, s.columns.contains name = true := by
  obtain ⟨hchecked, hrequired⟩ := over_eq_ok_iff.1 h
  rwa [reads_of_checked hchecked]

/-- Whether an indicator can be computed is seen from the names of the columns. -/
theorem over_take (spec : Spec) (s : Series) (m : Nat) : spec.over (s.take m) = spec.over s := by
  simp only [Spec.over, Series.contains_take, Series.names_take]

end Spec

namespace Series

/-- What is computed over the first days is what is computed over all days, cut to the first; errors are the same. -/
theorem compute_take_eq {s : Series} (hs : s.Even) (specs : List Spec) (m : Nat) :
    (s.take m).compute specs = (s.compute specs).map fun out => out.take m := by
  simp only [compute_eq, Spec.over_take]
  cases (Spec.dedup specs).mapM (Spec.over · s) with
  | error e => rfl
  | ok indicators =>
    show Except.ok ((s.take m).insertAll _) = Except.ok ((s.insertAll _).take m)
    rw [insertAll_take, List.map_flatMap]
    simp only [Indicator.columns_take hs]

/-- A series stays even with what is computed over it. -/
theorem Even.compute {s : Series} (hs : s.Even) {specs : List Spec} {out : Series} (h : s.compute specs = .ok out) :
    out.Even := by
  obtain ⟨indicators, hindicators, rfl⟩ := compute_eq_ok_iff.1 h
  refine hs.insertAll fun c hc => ?_
  obtain ⟨i, hi, hc⟩ := List.mem_flatMap.1 hc
  obtain ⟨spec, -, hover⟩ := exists_of_mem_mapM hindicators hi
  exact Indicator.length_of_mem_columns hs (Spec.contains_of_over hover) hc

/-- The change of the closing prices is one for each day. -/
theorem Even.withChange {s : Series} (hs : s.Even) : s.withChange.Even := by
  unfold Series.withChange
  cases hclose : s.column? "close" with
  | none => exact hs
  | some close => exact hs.insert ((causal_percentChange.length_eq close).trans (even_iff.1 hs _ _ hclose))

theorem hasRoomFor_take (s : Series) (specs : List Spec) (m : Nat) : (s.take m).hasRoomFor specs = s.hasRoomFor specs := by
  simp only [hasRoomFor, Spec.over_take]

end Series

/-- No indicator looks ahead. If all specifications can be computed over a series, they can be computed over its first days,
in the memory that the whole series needs, and what is computed is what was computed over the whole series, cut to these days.
The columns have a number for each day. The change of the closing prices has one too, and does not look ahead either. -/
theorem no_lookahead {s : Series} (hs : s.Even) {specs : List Spec} {out : Series} (h : s.compute specs = .ok out) (m : Nat) :
    (s.take m).compute specs = .ok (out.take m) ∧ (s.take m).hasRoomFor specs = s.hasRoomFor specs ∧ out.Even ∧
      s.withChange.Even ∧ (s.take m).withChange = s.withChange.take m ∧
      ∀ close : List Float, percentChange (close.take m) = (percentChange close).take m := by
  refine ⟨?_, s.hasRoomFor_take specs m, hs.compute h, hs.withChange, s.withChange_take m, causal_percentChange.take_eq m⟩
  rw [Series.compute_take_eq hs, h]
  rfl

/-- Three days, the last of which has no closing price. -/
def threeDays : Series :=
  ⟨[⟨2024, 1, 2⟩, ⟨2024, 1, 3⟩, ⟨2024, 1, 4⟩],
    .ofList [("high", [11.0, 12.0, 13.0]), ("low", [9.0, 10.0, 11.0]), ("close", [10.0, 11.0, 0.0 / 0.0])]⟩

/-- The means and the stochastic lines of two of the days are those of all three, cut to the two. -/
theorem two_of_three_days :
    let specs : List Spec := [.ma 2, .kdj 2 3.0 3.0]
    ∃ out, threeDays.compute specs = .ok out ∧ (threeDays.take 2).compute specs = .ok (out.take 2) ∧
      (out.take 2).column? "ma2" = some [10.0, 10.5] := by
  intro specs
  have heven : threeDays.Even := by
    unfold Series.Even
    decide +kernel
  have hmean : (threeDays.compute specs).toOption.bind (fun out => (out.take 2).column? "ma2") = some [10.0, 10.5] := by
    decide +kernel
  cases hcomputed : threeDays.compute specs with
  | error e =>
    rw [hcomputed] at hmean
    exact nomatch hmean
  | ok out =>
    rw [hcomputed] at hmean
    exact ⟨out, rfl, (no_lookahead heven hcomputed 2).1, hmean⟩

end EquityScreen
