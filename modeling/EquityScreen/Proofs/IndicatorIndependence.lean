import EquityScreen.Proofs.IndicatorCoverage
import EquityScreen.Proofs.Lemmas.Enrichment

/-!
# Indicators do not influence each other

No specification writes a column that an indicator reads (`Spec.not_writes_barColumns`), so what a specification gives over a
series it gives over every series that agrees with it on the columns of bars (`Spec.gives_congr`), an enriched one included.
Where specifications that are not the same write different columns (`Spec.Apart`), each column that is given has one value
whoever gives it (`Spec.Apart.gives_unique`). So a result is told by the members of the list, and a computation can be split,
repeated and reordered (`Series.compute_eq_of_subset`).
-/

namespace EquityScreen

/-! ## What is read is never written -/

namespace Series

/-- Two series have the same columns of bars. -/
def AgreeOnBars (s t : Series) : Prop := ∀ name ∈ Spec.barColumns, t.column? name = s.column? name

theorem AgreeOnBars.numbers_eq {s t : Series} (h : s.AgreeOnBars t) {name : String} (hname : name ∈ Spec.barColumns) :
    t.numbers name = s.numbers name := by
  rw [numbers, numbers, h name hname]

theorem AgreeOnBars.contains_eq {s t : Series} (h : s.AgreeOnBars t) {name : String} (hname : name ∈ Spec.barColumns) :
    t.columns.contains name = s.columns.contains name := by
  have hcolumn := h name hname
  rw [column?, column?] at hcolumn
  rw [Named.contains_eq_isSome, Named.contains_eq_isSome, hcolumn]

/-- What is computed over a series agrees with it on the columns of bars. -/
theorem agreeOnBars_compute {s out : Series} {specs : List Spec} (h : s.compute specs = .ok out) : s.AgreeOnBars out :=
  fun _ hname => column?_compute_of_not_writes h fun _ _ => Spec.not_writes_barColumns hname

end Series

/-- The columns of an indicator are those over any series with the same columns of bars. -/
theorem Indicator.columns_congr {s t : Series} (h : s.AgreeOnBars t) (i : Indicator) : i.columns t = i.columns s := by
  have hclose : t.numbers "close" = s.numbers "close" := h.numbers_eq (by decide)
  have hcandles : t.candles = s.candles := by
    rw [Series.candles, Series.candles, h.numbers_eq (by decide), h.numbers_eq (by decide), hclose]
  cases i with
  | ma | ema | macd | rsi | boll => simp only [columns, hclose]
  | atr | kdj => simp only [columns, hcandles]

namespace Spec

variable {s t : Series} {a b : Spec} {name : String} {values : List Float}

/-- Whether a specification is an indicator is told by the columns of bars. -/
theorem over_eq_ok_congr (h : s.AgreeOnBars t) {i : Indicator} : a.over t = .ok i ↔ a.over s = .ok i := by
  rw [over_eq_ok_iff, over_eq_ok_iff]
  refine and_congr_right fun _ => forall₂_congr fun name hname => ?_
  have hbar : name ∈ barColumns := by
    have hall : ∀ n ∈ ["high", "low", "close"], n ∈ barColumns := by decide
    refine hall name ?_
    unfold required at hname
    split at hname
    · exact hname
    · exact hname
    · rw [List.mem_singleton.1 hname]
      decide
  rw [h.contains_eq hbar]

/-- What a specification gives is told by the columns of bars. -/
theorem gives_congr (h : s.AgreeOnBars t) : a.Gives t name values ↔ a.Gives s name values := by
  refine exists_congr fun i => ?_
  rw [over_eq_ok_congr h, i.columns_congr h]

/-! ## Specifications that write different columns -/

/-- Specifications that are not the same write different columns. -/
def Apart (specs : List Spec) : Prop :=
  ∀ a ∈ specs, ∀ b ∈ specs, a = b ∨ a.same b = true ∨ ∀ name, a.Writes name → ¬b.Writes name

/-- A specification gives one column of each name. -/
theorem Gives.unique {values' : List Float} (h : a.Gives s name values) (h' : a.Gives s name values') : values' = values := by
  obtain ⟨i, hi, hmem⟩ := h
  obtain ⟨j, hj, hmem'⟩ := h'
  obtain rfl := Except.ok.inj (hi.symm.trans hj)
  have hnodup : ((i.columns s).map (·.1)).Nodup := by
    rw [i.map_fst_columns]
    exact i.nodup_outputs
  exact congrArg Prod.snd (List.inj_on_of_nodup_map hnodup hmem' hmem rfl)

theorem Apart.subset {specs sub : List Spec} (h : Apart specs) (hsub : ∀ a ∈ sub, a ∈ specs) : Apart sub :=
  fun a ha b hb => h a (hsub a ha) b (hsub b hb)

/-- A column that several of the specifications give they give with the same numbers. -/
theorem Apart.gives_unique {specs : List Spec} (h : Apart specs) (ha : a ∈ specs) (hb : b ∈ specs)
    {values' : List Float} (hgives : a.Gives s name values) (hgives' : b.Gives s name values') : values' = values := by
  rcases h a ha b hb with rfl | hsame | hapart
  · exact hgives.unique hgives'
  · obtain ⟨i, hi, hmem⟩ := hgives
    exact Gives.unique ⟨i, over_of_same hsame hi, hmem⟩ hgives'
  · exact absurd hgives'.writes (hapart name hgives.writes)

/-- So the result has every column as one of the specifications gives it. -/
theorem Apart.column?_eq {specs : List Spec} (h : Apart specs) {out : Series} (hout : s.compute specs = .ok out)
    (ha : a ∈ specs) (hgives : a.Gives s name values) : out.column? name = some values :=
  Series.column?_compute_of_gives hout ha hgives fun _ hb _ hgives' => h.gives_unique ha hb hgives hgives'

/-- Specifications of the catalog write different columns. -/
theorem apart_ofCatalog {specs : List Spec} (h : ∀ s ∈ specs, s ∈ ofCatalog) : Apart specs := by
  intro a ha b hb
  by_cases heq : a = b
  · exact .inl heq
  · obtain ⟨i, hi⟩ := exists_plannable_of_mem (h a ha)
    obtain ⟨j, hj⟩ := exists_plannable_of_mem (h b hb)
    refine .inr (.inr fun name hname hname' => ?_)
    rw [writes_iff (outputs_of_checked hi.checked)] at hname
    rw [writes_iff (outputs_of_checked hj.checked)] at hname'
    exact hi.disjoint hj heq hname hname'

end Spec

/-! ## Results told by the members of a list -/

namespace Series

variable {s t out : Series} {specs sub : List Spec}

theorem ext_column? (hdates : s.dates = t.dates) (h : ∀ name, s.column? name = t.column? name) : s = t := by
  obtain ⟨dates, columns⟩ := s
  obtain ⟨dates', columns'⟩ := t
  obtain rfl := hdates
  exact congrArg (Series.mk dates) (Named.ext_get? h)

/-- What some of the specifications write over a series that agrees with the first on the columns of bars is what all of them
leave under this name in the first. -/
theorem column?_eq_of_writes (hapart : Spec.Apart specs) (h : s.compute specs = .ok out) (hsub : ∀ a ∈ sub, a ∈ specs)
    (hagree : s.AgreeOnBars t) {out' : Series} (h' : t.compute sub = .ok out') {name : String}
    (hwrites : ∃ a ∈ sub, a.Writes name) : out'.column? name = out.column? name := by
  obtain ⟨a, ha, hwrites⟩ := hwrites
  obtain ⟨i, hi⟩ := exists_compute_iff.1 ⟨out, h⟩ a (hsub a ha)
  obtain ⟨values, hgives⟩ := hwrites.exists_gives hi
  rw [hapart.column?_eq h (hsub a ha) hgives, (hapart.subset hsub).column?_eq h' ha ((Spec.gives_congr hagree).2 hgives)]

/-- Some of the specifications can be computed over a series that agrees with the first on the columns of bars. -/
theorem exists_compute_of_subset (h : s.compute specs = .ok out) (hsub : ∀ a ∈ sub, a ∈ specs) (hagree : s.AgreeOnBars t) :
    ∃ out', t.compute sub = .ok out' := by
  refine exists_compute_iff.2 fun a ha => ?_
  obtain ⟨i, hi⟩ := exists_compute_iff.1 ⟨out, h⟩ a (hsub a ha)
  exact ⟨i, (Spec.over_eq_ok_congr hagree).2 hi⟩

/-- Over a series that has every other column of the result already some of the specifications have this result. -/
theorem compute_eq_of_subset (hapart : Spec.Apart specs) (h : s.compute specs = .ok out) (hsub : ∀ a ∈ sub, a ∈ specs)
    (hagree : s.AgreeOnBars t) (hdates : t.dates = s.dates)
    (hrest : ∀ name, (∀ a ∈ sub, ¬a.Writes name) → t.column? name = out.column? name) : t.compute sub = .ok out := by
  obtain ⟨out', h'⟩ := exists_compute_of_subset h hsub hagree
  rw [h']
  refine congrArg _ (ext_column? ?_ fun name => ?_)
  · rw [dates_compute h', dates_compute h, hdates]
  · by_cases hwrites : ∃ a ∈ sub, a.Writes name
    · exact column?_eq_of_writes hapart h hsub hagree h' hwrites
    · have hnone : ∀ a ∈ sub, ¬a.Writes name := fun a ha hw => hwrites ⟨a, ha, hw⟩
      rw [column?_compute_of_not_writes h' hnone, hrest name hnone]

end Series

/-- Indicators do not influence each other. Where specifications that are not the same write different columns, as all
specifications of a plan do, the result of a list is that of every list with the same members, in any order and with any
repetition; a list may be computed in two parts, the second over the result of the first; and computing any of the
specifications over the result changes nothing. -/
theorem computed_in_any_order {s : Series} {a b : List Spec} {out : Series} (h : s.compute (a ++ b) = .ok out)
    (hapart : Spec.Apart (a ++ b)) :
    (∀ specs, (∀ spec, spec ∈ specs ↔ spec ∈ a ++ b) → s.compute specs = .ok out) ∧
    (∃ between, s.compute a = .ok between ∧ between.compute b = .ok out) ∧
    (∀ specs, (∀ spec ∈ specs, spec ∈ a ++ b) → out.compute specs = .ok out) ∧
    ∀ (c : Condition) (keys : List SortKey), Spec.Apart (Registry.builtin.analyze c keys).specs := by
  have hself : s.AgreeOnBars s := fun _ _ => rfl
  refine ⟨fun specs hspecs => ?_, ?_, fun specs hspecs => ?_, fun c keys => ?_⟩
  · refine Series.compute_eq_of_subset hapart h (fun spec hspec => (hspecs spec).1 hspec) hself rfl fun name hname => ?_
    exact (Series.column?_compute_of_not_writes h fun spec hspec => hname spec ((hspecs spec).2 hspec)).symm
  · have hleft : ∀ spec ∈ a, spec ∈ a ++ b := fun spec hspec => List.mem_append_left b hspec
    obtain ⟨between, hbetween⟩ := Series.exists_compute_of_subset h hleft hself
    refine ⟨between, hbetween, ?_⟩
    refine Series.compute_eq_of_subset hapart h (fun spec hspec => List.mem_append_right a hspec)
      (Series.agreeOnBars_compute hbetween) (Series.dates_compute hbetween) fun name hname => ?_
    -- Of the names that the second part leaves alone, those of the first part have their columns by now.
    by_cases hwrites : ∃ spec ∈ a, spec.Writes name
    · exact Series.column?_eq_of_writes hapart h hleft hself hbetween hwrites
    · have hnone : ∀ spec ∈ a, ¬spec.Writes name := fun spec hspec hw => hwrites ⟨spec, hspec, hw⟩
      rw [Series.column?_compute_of_not_writes hbetween hnone,
        Series.column?_compute_of_not_writes h (List.forall_mem_append.2 ⟨hnone, hname⟩)]
  · exact Series.compute_eq_of_subset hapart h hspecs (Series.agreeOnBars_compute h) (Series.dates_compute h)
      fun _ _ => rfl
  · exact Spec.apart_ofCatalog fun spec hspec => Registry.mem_ofCatalog_of_mem_specs hspec

/-- Three days of which only the closing prices are known. -/
def threeCloses : Series :=
  ⟨[⟨2024, 1, 2⟩, ⟨2024, 1, 3⟩, ⟨2024, 1, 4⟩], .ofList [("close", [10.0, 11.0, 9.0])]⟩

/-- A moving average that is asked for twice and a strength between: computed at once, in another order, in two parts and once
more over the result they are the same. -/
theorem average_and_strength_apart :
    let specs : List Spec := [.ma 5, .rsi 6 .ema, .ma 5]
    ∃ out, threeCloses.compute specs = .ok out ∧ threeCloses.compute [.rsi 6 .ema, .ma 5] = .ok out ∧
      (∃ between, threeCloses.compute [.ma 5] = .ok between ∧ between.compute [.rsi 6 .ema, .ma 5] = .ok out) ∧
      out.compute specs = .ok out := by
  intro specs
  have hcatalog : ∀ s ∈ specs, s ∈ Spec.ofCatalog := by decide
  have hsome : (threeCloses.compute specs).toOption.isSome = true := by decide +kernel
  obtain ⟨out, hout⟩ := Option.isSome_iff_exists.1 hsome
  have h : threeCloses.compute ([.ma 5] ++ [.rsi 6 .ema, .ma 5]) = .ok out := eq_ok_of_toOption hout
  obtain ⟨hany, hparts, hagain, -⟩ := computed_in_any_order h (Spec.apart_ofCatalog hcatalog)
  refine ⟨out, h, hany _ fun spec => ?_, hparts, hagain _ fun _ hspec => hspec⟩
  simp only [List.cons_append, List.nil_append, List.mem_cons, List.not_mem_nil, or_false]
  tauto

end EquityScreen
