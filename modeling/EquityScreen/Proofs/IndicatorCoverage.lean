import EquityScreen.Proofs.Lemmas.Names
import EquityScreen.Proofs.Lemmas.Specs
import EquityScreen.Screening.Service

/-!
# Every indicator that is asked for is computed

A plan collects the computed fields that a request names and turns each into the specification whose columns hold it. For the
fields of the catalog every such specification is in order, and the columns it writes are fields that have this very
specification (`Spec.exists_plannable`). So two specifications of a plan never write the same column, the fields shown with
every row included, and each field that is asked for is found in the computed series under its own name, with what its own
specification gives (`technical_fields_are_computed`).
-/

namespace EquityScreen

/-! ## Computed fields and stored fields -/

/-- The names of the computed fields of the catalog. -/
def Catalog.technicalNames : List String := indicators.map (·.name)

namespace Registry

variable {r : Registry}

/-- A technical name resolves to a technical field. -/
theorem isTechnical_iff {name : String} :
    r.isTechnical name = true ↔ ∃ d, r.resolve? name = some d ∧ d.category = .technical := by
  rw [isTechnical, categoryOf?]
  cases r.resolve? name <;> simp

/-- A name that is known is stored or technical, and not both. -/
theorem isStored_eq_not_isTechnical {name : String} (h : (r.resolve? name).isSome = true) :
    r.isStored name = !r.isTechnical name := by
  obtain ⟨d, hd⟩ := Option.isSome_iff_exists.1 h
  rw [isStored, isTechnical, categoryOf?, hd]
  cases hc : d.category <;> simp [hc]

/-- A computed field of the catalog has one name: no old name stands for it. -/
theorem mem_technicalNames {name : String} (h : builtin.isTechnical name = true) :
    canonicalName name = name ∧ name ∈ Catalog.technicalNames := by
  obtain ⟨d, hd, hc⟩ := isTechnical_iff.1 h
  obtain ⟨hmem, hname⟩ := mem_of_resolve? hd
  have hall : ∀ d ∈ Catalog.all, d.category = .technical → d.name ∈ Catalog.technicalNames ∧ d.name ∉ oldNames.map (·.2) := by
    decide
  obtain ⟨htechnical, hnew⟩ := hall d hmem hc
  rcases canonicalName_cases name with ⟨hsame, -⟩ | ⟨e, he, -, hold⟩
  · rw [hname, hsame] at htechnical
    exact ⟨hsame, htechnical⟩
  · rw [hname, hold] at hnew
    exact absurd (List.mem_map_of_mem he) hnew

/-- An accepted request names fields that are known. -/
theorem isSome_resolve?_of_check {c : Condition} {keys : List SortKey} (h : r.check c keys = []) {name : String}
    (hname : name ∈ c.namesWith keys) : (r.resolve? name).isSome = true := by
  obtain ⟨hissues, hsorts⟩ := List.append_eq_nil_iff.1 h
  rcases List.mem_append.1 hname with hname | hname
  · obtain ⟨l, hl, hname⟩ := List.mem_flatMap.1 hname
    obtain ⟨d, hd, -, hright⟩ := (r.leafReason?_eq_none_iff l).1 ((r.issues_eq_nil_iff c).1 hissues l hl)
    obtain ⟨field, op, right⟩ := l
    rcases List.mem_cons.1 hname with rfl | hname
    · rw [hd]
      rfl
    · cases right with
      | literal v => exact absurd hname List.not_mem_nil
      | field other =>
        obtain rfl := List.mem_singleton.1 hname
        exact Option.isSome_of_any hright.1
  · obtain ⟨k, hk, rfl⟩ := List.mem_map.1 hname
    exact (r.sortIssues_eq_nil_iff keys).1 hsorts k hk

/-- An accepted request is computed when it names a technical field, and this is when it needs bars. -/
theorem needsSeries_iff {c : Condition} {keys : List SortKey} (h : r.check c keys = []) :
    (r.analyze c keys).needsSeries = true ↔ r.plan c keys = .computed := by
  have hstored : (referencedFields c keys).all r.isStored = ((referencedFields c keys).filter r.isTechnical).isEmpty := by
    rw [Bool.eq_iff_iff, List.all_eq_true, List.isEmpty_iff, List.filter_eq_nil_iff]
    refine forall₂_congr fun name hname => ?_
    obtain ⟨spelled, hspelled, rfl⟩ := List.mem_map.1 (mem_referencedFields_iff.1 hname)
    rw [isStored_eq_not_isTechnical, Bool.not_eq_true', Bool.not_eq_true]
    rw [resolve?_canonicalName]
    exact isSome_resolve?_of_check h hspelled
  rw [plan, hstored]
  show (!((referencedFields c keys).filter r.isTechnical).isEmpty) = true ↔ _
  cases ((referencedFields c keys).filter r.isTechnical).isEmpty <;> simp

end Registry

/-! ## The specifications of the catalog -/

instance : DecidableEq Spec := fun a b => decidable_of_iff (a.name = b.name ∧ a.params = b.params) (by cases a; cases b; simp)

namespace Spec

/-- The columns of bars that indicators read. -/
def priceColumns : List String := ["high", "low", "close"]

/-- What a plan relies on: the parameters of the specification are those of an indicator that reads columns of bars and has
room for its rings, and the different columns it writes are fields of which this is the specification. -/
structure Plannable (s : Spec) (i : Indicator) : Prop where
  checked : s.checked = .ok i
  required : ∀ name ∈ s.required, name ∈ priceColumns
  nodup : i.outputs.Nodup
  own : ∀ name ∈ i.outputs, forField? name = some s
  room : i.slots ≤ Ring.mostSlots

/-- Every computed field of the catalog has a specification, which writes it. -/
theorem exists_plannable {name : String} (h : name ∈ Catalog.technicalNames) :
    ∃ s i, forField? name = some s ∧ s.Plannable i ∧ name ∈ i.outputs := by
  have hall : ∀ name ∈ Catalog.technicalNames, ∃ s ∈ forField? name, ∃ i ∈ s.checked.toOption,
      (∀ n ∈ s.required, n ∈ priceColumns) ∧ i.outputs.Nodup ∧ (∀ n ∈ i.outputs, forField? n = some s) ∧
        i.slots ≤ Ring.mostSlots ∧ name ∈ i.outputs := by
    decide
  obtain ⟨s, hs, i, hi, hrequired, hnodup, hown, hroom, hname⟩ := hall name h
  exact ⟨s, i, hs, ⟨eq_ok_of_toOption hi, hrequired, hnodup, hown, hroom⟩, hname⟩

/-- The specifications of the computed fields of the catalog. -/
def ofCatalog : List Spec := Catalog.technicalNames.filterMap forField?

/-- The specifications of the catalog are the same only where they are equal. -/
theorem same_iff_eq : ∀ s ∈ ofCatalog, ∀ t ∈ ofCatalog, s.same t = true ↔ s = t := by decide

theorem exists_plannable_of_mem {s : Spec} (h : s ∈ ofCatalog) : ∃ i, s.Plannable i := by
  obtain ⟨name, hname, hs⟩ := List.mem_filterMap.1 h
  obtain ⟨s', i, hs', hi, -⟩ := exists_plannable hname
  obtain rfl := Option.some.inj (hs.symm.trans hs')
  exact ⟨i, hi⟩

/-- Where a specification of the catalog is an indicator a plan can rely on it. -/
theorem plannable_of_checked {s : Spec} (h : s ∈ ofCatalog) {i : Indicator} (hi : s.checked = .ok i) : s.Plannable i := by
  obtain ⟨j, hj⟩ := exists_plannable_of_mem h
  obtain rfl := Except.ok.inj (hj.checked.symm.trans hi)
  exact hj

namespace Plannable

variable {s t : Spec} {i j : Indicator}

/-- Over a series with the columns of bars the indicator is computed. -/
theorem over_eq_ok (h : s.Plannable i) {series : Series} (hprices : ∀ name ∈ priceColumns, series.columns.contains name = true) :
    s.over series = .ok i :=
  over_eq_ok_iff.2 ⟨h.checked, fun name hname => hprices name (h.required name hname)⟩

/-- Different specifications write different columns. -/
theorem disjoint (hs : s.Plannable i) (ht : t.Plannable j) (hne : s ≠ t) : i.outputs.Disjoint j.outputs := by
  intro name hi hj
  exact hne (Option.some.inj ((hs.own name hi).symm.trans (ht.own name hj)))

end Plannable

/-- Specifications of the catalog are indicators. -/
theorem exists_checked {specs : List Spec} (hcatalog : ∀ s ∈ specs, s ∈ ofCatalog) :
    ∃ indicators, specs.mapM checked = .ok indicators := by
  refine exists_mapM fun s hs => ?_
  obtain ⟨i, hi⟩ := exists_plannable_of_mem (hcatalog s hs)
  exact ⟨i, hi.checked⟩

/-- Specifications of the catalog, none of which is the same as an earlier one, write no column twice. -/
theorem nodup_outputs {specs : List Spec} (hcatalog : ∀ s ∈ specs, s ∈ ofCatalog)
    (hpair : specs.Pairwise fun a b => a.same b = false) {indicators : List Indicator}
    (h : specs.mapM checked = .ok indicators) : (indicators.flatMap Indicator.outputs).Nodup := by
  refine List.nodup_flatMap.2 ⟨fun i hi => ?_, ?_⟩
  · obtain ⟨s, hs, hchecked⟩ := exists_of_mem_mapM h hi
    exact (plannable_of_checked (hcatalog s hs) hchecked).nodup
  · have hdisjoint : specs.Pairwise fun a b => ∀ i j, a.checked = .ok i → b.checked = .ok j →
        i.outputs.Disjoint j.outputs := by
      refine hpair.imp_of_mem fun {a b} ha hb hab i j hi hj => ?_
      refine (plannable_of_checked (hcatalog a ha) hi).disjoint (plannable_of_checked (hcatalog b hb) hj) fun heq => ?_
      rw [(same_iff_eq a (hcatalog a ha) b (hcatalog b hb)).2 heq] at hab
      exact absurd hab.symm Bool.false_ne_true
    exact pairwise_of_mapM (fun ha hb hab => hab _ _ ha hb) h hdisjoint

end Spec

namespace Series

/-- Bars have the columns that indicators read, whatever is put in for the change of the closing prices. -/
theorem contains_prices (bars : List Bar) (changes : List Float) :
    ∀ name ∈ Spec.priceColumns, ((ofBars bars).insert "pct_chg" changes).columns.contains name = true := by
  simp [Spec.priceColumns, Named.contains_eq_isSome, insert, ofBars, Named.ofList]

/-- The screen puts in the change of the closing prices, which bars have. -/
theorem withChange_ofBars (bars : List Bar) : ∃ changes, (ofBars bars).withChange = (ofBars bars).insert "pct_chg" changes := by
  have hclose : (ofBars bars).column? "close" = some ((bars.mergeSort fun a b => a.date.le b.date).map (·.close)) := by
    simp [column?, ofBars, Named.ofList]
  exact ⟨_, by rw [withChange, hclose]⟩

/-- Over a series with the columns of bars there is room for specifications of the catalog, none of which is the same as an
earlier one; they are computed, and every column of each of them is in the result as it is computed. -/
theorem exists_compute_ofCatalog {series : Series} (hprices : ∀ name ∈ Spec.priceColumns, series.columns.contains name = true)
    {specs : List Spec} (hcatalog : ∀ s ∈ specs, s ∈ Spec.ofCatalog) (hpair : specs.Pairwise fun a b => a.same b = false) :
    series.hasRoomFor specs = true ∧ ∃ out, series.compute specs = .ok out ∧
      ∀ s ∈ specs, ∀ i, s.Plannable i → ∀ c ∈ i.columns series, out.column? c.1 = some c.2 := by
  obtain ⟨indicators, hindicators⟩ := Spec.exists_checked hcatalog
  have hover : specs.mapM (·.over series) = .ok indicators := by
    have hmap : specs.mapM (·.over series) = .ok (indicators.map id) := by
      refine mapM_eq_map (fun s hs i hi => ?_) hindicators
      exact (Spec.plannable_of_checked (hcatalog s hs) hi).over_eq_ok hprices
    rwa [List.map_id] at hmap
  obtain ⟨out, hcompute, hcolumns⟩ := exists_compute hpair hover (Spec.nodup_outputs hcatalog hpair hindicators)
  refine ⟨?_, out, hcompute, fun s hs i hi => hcolumns i (mem_of_mapM hindicators hs hi.checked)⟩
  rw [hasRoomFor, Spec.dedup_of_pairwise hpair, hover]
  refine List.all_eq_true.2 fun i hi => ?_
  obtain ⟨s, hs, hchecked⟩ := exists_of_mem_mapM hindicators hi
  exact decide_eq_true (Spec.plannable_of_checked (hcatalog s hs) hchecked).room

end Series

/-! ## The plan -/

namespace Registry

variable {c : Condition} {keys : List SortKey}

/-- The fields shown with every row have specifications of the catalog. -/
theorem display_subset : ∀ s ∈ Spec.display, s ∈ Spec.ofCatalog := by decide

/-- A plan has specifications of the catalog only. -/
theorem mem_ofCatalog_of_mem_specs {s : Spec} (h : s ∈ (builtin.analyze c keys).specs) : s ∈ Spec.ofCatalog := by
  rcases List.mem_append.1 (Spec.mem_of_mem_dedup h) with h | h
  · obtain ⟨name, hname, hs⟩ := List.mem_filterMap.1 h
    have htechnical := (mem_technicalNames (List.mem_filter.1 hname).2).2
    exact List.mem_filterMap.2 ⟨name, htechnical, hs⟩
  · split at h
    · exact absurd h List.not_mem_nil
    · exact display_subset s h

/-- A plan collects each technical field that is named, under this name. -/
theorem mem_technical {name : String} (hname : name ∈ c.namesWith keys) (htechnical : builtin.isTechnical name = true) :
    name ∈ (builtin.analyze c keys).technical := by
  refine List.mem_filter.2 ⟨mem_referencedFields_iff.2 (List.mem_map.2 ⟨name, hname, ?_⟩), htechnical⟩
  exact (mem_technicalNames htechnical).1

/-- A plan has the specification of each technical field that is named. -/
theorem exists_mem_specs {name : String} (hname : name ∈ c.namesWith keys) (htechnical : builtin.isTechnical name = true) :
    ∃ s ∈ (builtin.analyze c keys).specs, ∃ i, Spec.forField? name = some s ∧ s.Plannable i ∧ name ∈ i.outputs := by
  obtain ⟨-, hcatalog⟩ := mem_technicalNames htechnical
  obtain ⟨s, i, hs, hi, hwritten⟩ := Spec.exists_plannable hcatalog
  have hasked : s ∈ ((referencedFields c keys).filter builtin.isTechnical).filterMap Spec.forField? :=
    List.mem_filterMap.2 ⟨name, mem_technical hname htechnical, hs⟩
  obtain ⟨t, ht, hts⟩ := Spec.exists_mem_dedup (List.mem_append_left _ hasked)
  have hkept : t ∈ (builtin.analyze c keys).specs := ht
  have heq : t = s := by
    rcases hts with hts | hts
    · exact hts
    · exact (Spec.same_iff_eq t (mem_ofCatalog_of_mem_specs hkept) s (List.mem_filterMap.2 ⟨name, hcatalog, hs⟩)).1 hts
  exact ⟨s, heq ▸ hkept, i, hs, hi, hwritten⟩

end Registry

/-- Of an accepted request the plan has every indicator that the evaluation reads. It is computed, and over bars, exactly when it
names a technical field. No column is written twice by its specifications, those of the fields shown with every row included;
over any bars all of them can be computed; and then a technical field that is named, on either side of a comparison or by a sort
key, is a column of the result, with the values of its own specification. -/
theorem technical_fields_are_computed {c : Condition} {keys : List SortKey} (h : Registry.builtin.check c keys = []) :
    let analysis := Registry.builtin.analyze c keys
    (analysis.needsSeries = true ↔ Registry.builtin.plan c keys = .computed) ∧
    (∃ columns, analysis.specs.mapM Spec.outputs = .ok columns ∧ columns.flatten.Nodup) ∧
    ∀ (bars : List Bar) (changes : List Float),
      let series := (Series.ofBars bars).insert "pct_chg" changes
      series.hasRoomFor analysis.specs = true ∧
      ∃ enriched, series.compute analysis.specs = .ok enriched ∧
        ∀ name ∈ c.namesWith keys, Registry.builtin.isTechnical name = true →
          ∃ s ∈ analysis.specs, ∃ i values, Spec.forField? name = some s ∧ s.over series = .ok i ∧
            (name, values) ∈ i.columns series ∧ enriched.column? name = some values := by
  intro analysis
  have hcatalog : ∀ s ∈ analysis.specs, s ∈ Spec.ofCatalog := fun s hs => Registry.mem_ofCatalog_of_mem_specs hs
  have hpair : analysis.specs.Pairwise fun a b => a.same b = false := Spec.pairwise_dedup _
  refine ⟨Registry.needsSeries_iff h, ?_, fun bars changes => ?_⟩
  · obtain ⟨indicators, hindicators⟩ := Spec.exists_checked hcatalog
    refine ⟨indicators.map Indicator.outputs, mapM_eq_map (fun s _ i hi => Spec.outputs_of_checked hi) hindicators, ?_⟩
    rw [← List.flatMap_def]
    exact Spec.nodup_outputs hcatalog hpair hindicators
  · have hprices := Series.contains_prices bars changes
    obtain ⟨hroom, enriched, hcompute, hcolumns⟩ := Series.exists_compute_ofCatalog hprices hcatalog hpair
    refine ⟨hroom, enriched, hcompute, fun name hname htechnical => ?_⟩
    obtain ⟨s, hs, i, hfield, hi, hwritten⟩ := Registry.exists_mem_specs hname htechnical
    rw [← i.map_fst_columns ((Series.ofBars bars).insert "pct_chg" changes)] at hwritten
    obtain ⟨column, hcolumn, rfl⟩ := List.mem_map.1 hwritten
    exact ⟨s, hs, i, column.2, hfield, hi.over_eq_ok hprices, hcolumn, hcolumns s hs i hi column hcolumn⟩

/-- A fall that may be over, with a computed field on the left, on the right and on both sides. -/
def oversold : Condition :=
  .all [.leaf ⟨"rsi6", .lt, .literal (.number 20)⟩,
    .any [.leaf ⟨"ma5", .crossUp, .field "ma10"⟩, .leaf ⟨"price", .lt, .field "boll_lower"⟩]]

/-- The least stochastic line first. -/
def byStochastic : List SortKey := [⟨"kdj_j", .asc⟩]

/-- Two days, the later one first. -/
def twoBars : List Bar :=
  [⟨⟨2024, 1, 3⟩, 11, 12, 10, 11.5, 900, none⟩, ⟨⟨2024, 1, 2⟩, 10, 11, 9, 10.5, 1000, some 10500⟩]

/-- Over two days every indicator of such a screen is computed, and its fields are columns. -/
theorem oversold_is_computed :
    Registry.builtin.check oversold byStochastic = [] ∧ Registry.builtin.plan oversold byStochastic = .computed ∧
      ∃ enriched, (Series.ofBars twoBars).withChange.compute (Registry.builtin.analyze oversold byStochastic).specs =
          .ok enriched ∧
        ∀ name ∈ ["rsi6", "ma5", "ma10", "boll_lower", "kdj_j"], enriched.columns.contains name = true := by
  have haccepted : Registry.builtin.check oversold byStochastic = [] := by decide
  have hneeds : (Registry.builtin.analyze oversold byStochastic).needsSeries = true := by decide
  have hnamed : ∀ name ∈ ["rsi6", "ma5", "ma10", "boll_lower", "kdj_j"],
      name ∈ oversold.namesWith byStochastic ∧ Registry.builtin.isTechnical name = true := by
    decide
  obtain ⟨hplan, -, hbars⟩ := technical_fields_are_computed haccepted
  obtain ⟨changes, hchanges⟩ := Series.withChange_ofBars twoBars
  obtain ⟨-, enriched, hcompute, hcolumns⟩ := hbars twoBars changes
  refine ⟨haccepted, hplan.1 hneeds, enriched, hchanges ▸ hcompute, fun name hname => ?_⟩
  obtain ⟨hin, htechnical⟩ := hnamed name hname
  obtain ⟨s, -, i, values, -, -, -, hcolumn⟩ := hcolumns name hin htechnical
  rw [Named.contains_eq_isSome]
  exact Option.isSome_of_eq_some hcolumn

end EquityScreen
