import EquityScreen.Proofs.Causality
import EquityScreen.Proofs.IndicatorCoverage
import EquityScreen.Proofs.Lemmas.Enrichment
import EquityScreen.Proofs.MissingLiterals

/-!
# Which sides of a crossing can be read

A crossing reads the columns of the series and nothing else. Its left side is a computed field, which the plan has computed.
Its right side is only asked to be numeric, so it may also be a stored field that is no column of bars, or a literal that reads
as the mark of a missing number (`Operand.Unreadable`). A crossing with such a right side is accepted and never matches; every other
one that is accepted has both of its sides (`crossing_readable_iff`).
-/

namespace EquityScreen

/-! ## Columns that go back a day -/

namespace Series

variable {s : Series} {name : String}

/-- The series has a column of this name, with a number for the last day and one for the day before. -/
def GoesBack (s : Series) (name : String) : Prop :=
  s.columns.contains name = true ∧ ∀ back < 2, ∃ x, s.fromEnd? name back = some x

/-- In an even series of two days every column goes back. -/
theorem Even.goesBack_iff (hs : s.Even) (hlength : 2 ≤ s.length) : s.GoesBack name ↔ s.columns.contains name = true := by
  refine and_iff_left_of_imp fun hname back hback => ?_
  rw [Named.contains_eq_isSome] at hname
  obtain ⟨values, hvalues⟩ := Option.isSome_iff_exists.1 hname
  have hlt : back < values.reverse.length := by
    rw [List.length_reverse, even_iff.1 hs name values hvalues]
    omega
  exact ⟨values.reverse[back], by rw [fromEnd?, column?, hvalues]; exact List.getElem?_eq_getElem hlt⟩

/-- The series of bars has a number for each bar in each column. -/
theorem even_ofBars (bars : List Bar) : (ofBars bars).Even := by
  refine even_iff.2 fun name values hvalues => ?_
  have hcolumn := (Named.get?_ofList_eq_some_iff (by simp) _ _).1 hvalues
  simp only [List.mem_cons, List.not_mem_nil, or_false, Prod.mk.injEq] at hcolumn
  rcases hcolumn with ⟨-, rfl⟩ | ⟨-, rfl⟩ | ⟨-, rfl⟩ | ⟨-, rfl⟩ | ⟨-, rfl⟩ | ⟨-, rfl⟩ <;> simp [length, ofBars]

theorem length_withChange_ofBars (bars : List Bar) : (ofBars bars).withChange.length = bars.length := by
  obtain ⟨changes, hchanges⟩ := withChange_ofBars bars
  rw [hchanges]
  simp [length, insert, ofBars]

/-- The columns of the series of bars are those of a bar. -/
theorem contains_ofBars (bars : List Bar) (name : String) :
    (ofBars bars).columns.contains name = true ↔ name ∈ ["open", "high", "low", "close", "volume", "amount"] := by
  rw [ofBars, Named.ofList, Named.contains_foldl_insert]
  simp [Named.contains_eq_isSome]

/-- The columns of the series that a screen makes of bars are those of bars. -/
theorem contains_withChange_ofBars (bars : List Bar) :
    (ofBars bars).withChange.columns.contains name = true ↔ name ∈ Spec.barColumns := by
  obtain ⟨changes, hchanges⟩ := withChange_ofBars bars
  rw [hchanges, insert, Named.contains_eq_isSome, Named.get?_insert]
  split
  · subst name
    exact iff_of_true rfl (by decide)
  · rename_i hne
    rw [← Named.contains_eq_isSome, contains_ofBars]
    simp [Spec.barColumns, hne]

end Series

/-! ## Sides that can be read -/

namespace Operand

/-- The right side of a crossing is there before and now: a column that goes back, or a number, which stays where it is. -/
def ReadableIn (s : Series) : Operand → Prop
  | .field name => s.GoesBack name
  | .literal v => ∃ x, v.asNumber = some x ∧ x.isNaN = false

/-- The right side of a crossing is in no series of bars: a field that is neither computed nor a column of bars, or a literal
that reads as the mark of a missing number. Fields are meant by the names of the registry, to which a screen brings its
condition before it looks at it. -/
def Unreadable : Operand → Prop
  | .field name => Registry.builtin.isTechnical name = false ∧ name ∉ Spec.barColumns
  | .literal v => v.ReadsMissing

end Operand

/-- A literal that may be crossed fits the field. -/
theorem Descriptor.fits_of_isCross {d : Descriptor} {op : Operator} (hcross : op.isCross = true) {v : Literal}
    (h : d.literalReason? op v = none) : d.fits v = true := by
  have hreason : d.literalReason? op v = if d.fits v then none else some (d.misfit op v) := by
    cases op <;> first | rfl | exact absurd hcross (by decide)
  by_contra hmisfit
  rw [hreason, if_neg hmisfit] at h
  exact nomatch h

namespace Registry

variable {c : Condition} {keys : List SortKey} {l : Leaf}

/-- An accepted crossing has a computed field on its left, and on its right a field or a literal that reads as a number. -/
theorem accepted_crossing (h : builtin.check c keys = []) (hl : l ∈ c.leaves) (hcross : l.op.isCross = true) :
    builtin.isTechnical l.field = true ∧ ∀ v, l.right = .literal v → ∃ x, v.asNumber = some x := by
  have hcatalog : ∀ d ∈ Catalog.all, ∀ op : Operator, op.isCross = true → d.supports op = true →
      d.category = .technical ∧ d.isNumeric = true := by
    intro d hd op
    revert d
    cases op <;> decide
  obtain ⟨hissues, -⟩ := List.append_eq_nil_iff.1 h
  obtain ⟨d, hd, hop, hright⟩ := (builtin.leafReason?_eq_none_iff l).1 ((builtin.issues_eq_nil_iff c).1 hissues l hl)
  obtain ⟨htechnical, hnumeric⟩ := hcatalog d (mem_of_resolve? hd).1 l.op hcross hop
  refine ⟨isTechnical_iff.2 ⟨d, hd, htechnical⟩, fun v hv => ?_⟩
  rw [hv] at hright
  exact Leaf.asNumber_of_fits hnumeric (Descriptor.fits_of_isCross hcross hright)

/-- What a specification of the catalog writes is a computed field. -/
theorem isTechnical_of_writes {s : Spec} (hs : s ∈ Spec.ofCatalog) {name : String} (hname : s.Writes name) :
    builtin.isTechnical name = true := by
  have hall : ∀ s ∈ Spec.ofCatalog, ∀ i ∈ s.checked.toOption, ∀ name ∈ i.outputs, builtin.isTechnical name = true := by
    decide
  obtain ⟨i, hi⟩ := Spec.exists_plannable_of_mem hs
  rw [Spec.writes_iff (Spec.outputs_of_checked hi.checked)] at hname
  refine hall s hs i ?_ name hname
  rw [hi.checked]
  rfl

/-- A plan with a technical field needs bars. -/
theorem needsSeries_of_mem {name : String} (h : name ∈ (builtin.analyze c keys).technical) :
    (builtin.analyze c keys).needsSeries = true := by
  have hneeds : (builtin.analyze c keys).needsSeries = !(builtin.analyze c keys).technical.isEmpty := rfl
  rw [hneeds, List.isEmpty_eq_false_iff.2 (List.ne_nil_of_mem h)]
  rfl

/-- Over bars a plan is computed, and the columns are then those of bars and computed fields, with all of these that are named. -/
theorem exists_enriched (bars : List Bar) (c : Condition) (keys : List SortKey) :
    ∃ enriched, (Series.ofBars bars).withChange.compute (builtin.analyze c keys).specs = .ok enriched ∧
      (∀ name, enriched.columns.contains name = true → builtin.isTechnical name = true ∨ name ∈ Spec.barColumns) ∧
      (∀ name ∈ Spec.barColumns, enriched.columns.contains name = true) ∧
      ∀ name ∈ c.namesWith keys, builtin.isTechnical name = true → enriched.columns.contains name = true := by
  have hprices : ∀ name ∈ Spec.priceColumns, (Series.ofBars bars).withChange.columns.contains name = true := by
    have hsub : ∀ name ∈ Spec.priceColumns, name ∈ Spec.barColumns := by decide
    exact fun name hname => (Series.contains_withChange_ofBars bars).2 (hsub name hname)
  obtain ⟨-, enriched, henriched, -⟩ :=
    Series.exists_compute_ofCatalog hprices (fun _ hs => mem_ofCatalog_of_mem_specs hs) (Spec.pairwise_dedup _)
  have hcolumns : ∀ name, enriched.columns.contains name = true ↔
      name ∈ Spec.barColumns ∨ ∃ s ∈ (builtin.analyze c keys).specs, s.Writes name := by
    intro name
    rw [Series.contains_compute_iff henriched, Series.contains_withChange_ofBars]
  refine ⟨enriched, henriched, fun name hname => ?_, fun name hname => (hcolumns name).2 (.inl hname), ?_⟩
  · rcases (hcolumns name).1 hname with hbar | ⟨s, hs, hwrites⟩
    · exact .inr hbar
    · exact .inl (isTechnical_of_writes (mem_ofCatalog_of_mem_specs hs) hwrites)
  · intro name hname htechnical
    obtain ⟨s, hs, i, -, hi, hwritten⟩ := exists_mem_specs hname htechnical
    exact (hcolumns name).2 (.inr ⟨s, hs, (Spec.writes_iff (Spec.outputs_of_checked hi.checked)).2 hwritten⟩)

end Registry

namespace Operand

variable {right : Operand} {s : Series}

/-- In an even series of two days the right side of a crossing can be read unless it is unreadable, where computed fields and
the columns of bars are columns of the series. -/
theorem readableIn_iff (hs : s.Even) (hlength : 2 ≤ s.length) (hnumber : ∀ v, right = .literal v → ∃ x, v.asNumber = some x)
    (hcolumns : ∀ name, right = .field name →
      (s.columns.contains name = true ↔ Registry.builtin.isTechnical name = true ∨ name ∈ Spec.barColumns)) :
    right.ReadableIn s ↔ ¬right.Unreadable := by
  cases right with
  | field name =>
    rw [ReadableIn, Unreadable, hs.goesBack_iff hlength, hcolumns name rfl, not_and_or, Bool.not_eq_false, not_not]
  | literal v =>
    obtain ⟨x, hx⟩ := hnumber v rfl
    simp [ReadableIn, Unreadable, Literal.ReadsMissing, hx]

end Operand

/-- What has an unreadable right side does not cross, where the columns of the series are computed fields and those of bars. -/
theorem Context.crosses_of_unreadable {l : Leaf} (h : l.right.Unreadable) {s : Series}
    (hcolumns : ∀ name, s.columns.contains name = true → Registry.builtin.isTechnical name = true ∨ name ∈ Spec.barColumns)
    (snapshot : Option Snapshot) : (Context.series s snapshot).crosses l = false := by
  cases hright : l.right with
  | literal v =>
    rw [hright] at h
    exact crosses_of_readsMissing _ h hright
  | field name =>
    rw [hright] at h
    obtain ⟨hstored, hbar⟩ := h
    have habsent : s.column? name = none := by
      by_contra hpresent
      have hcontains : s.columns.contains name = true := by
        rw [Named.contains_eq_isSome]
        exact Option.isSome_iff_ne_none.2 hpresent
      rcases hcolumns name hcontains with htechnical | hmem
      · exact absurd (hstored.symm.trans htechnical) Bool.false_ne_true
      · exact hbar hmem
    refine crosses_of_line?_eq_none _ ?_
    rw [hright, line?, past?, Series.fromEnd?, habsent]
    rfl

/-- Which accepted crossings can be read. Over bars of two days or more, with what the plan of the request computes over them, the
left side of a crossing is always a column that goes back to the day before the last. The right side is one too, or else a
number, exactly if it is not a field that is neither computed nor a column of bars, nor a literal that reads as the mark of a
missing number. A crossing with one of these on its right is accepted all the same, and matches no symbol, whatever its bars
and its snapshot. -/
theorem crossing_readable_iff {c : Condition} {keys : List SortKey} (h : Registry.builtin.check c keys = []) {l : Leaf}
    (hl : l ∈ c.leaves) (hcross : l.op.isCross = true) {bars : List Bar} (hbars : 2 ≤ bars.length) :
    (Registry.builtin.analyze c keys).needsSeries = true ∧
    ∃ enriched, (Series.ofBars bars).withChange.compute (Registry.builtin.analyze c keys).specs = .ok enriched ∧
      enriched.GoesBack l.field ∧ (l.right.ReadableIn enriched ↔ ¬l.right.Unreadable) ∧
      (l.right.Unreadable → ∀ snapshot, (Context.series enriched snapshot).matchesLeaf l = false) := by
  obtain ⟨htechnical, hnumber⟩ := Registry.accepted_crossing h hl hcross
  have hnamed : ∀ name ∈ l.fields, name ∈ c.namesWith keys := fun name hname =>
    List.mem_append_left _ (List.mem_flatMap.2 ⟨l, hl, hname⟩)
  have hleft := hnamed l.field List.mem_cons_self
  obtain ⟨enriched, henriched, honly, hofBars, hcomputed⟩ := Registry.exists_enriched bars c keys
  have heven : enriched.Even := (Series.even_ofBars bars).withChange.compute henriched
  have hlength : 2 ≤ enriched.length := by
    rw [Series.length, Series.dates_compute henriched, ← Series.length, Series.length_withChange_ofBars]
    exact hbars
  refine ⟨Registry.needsSeries_of_mem (Registry.mem_technical hleft htechnical), enriched, henriched, ?_, ?_,
    fun hunreadable snapshot => ?_⟩
  · exact (heven.goesBack_iff hlength).2 (hcomputed _ hleft htechnical)
  · refine Operand.readableIn_iff heven hlength hnumber fun name hname => ⟨honly name, ?_⟩
    rintro (htechnical | hbar)
    · exact hcomputed name (hnamed name (Context.mem_fields_of_right hname)) htechnical
    · exact hofBars name hbar
  · rw [Context.matchesLeaf, if_pos hcross]
    exact Context.crosses_of_unreadable hunreadable honly snapshot

/-- Of a fall that may be over, both means of the crossing can be read over two days. -/
theorem crossing_of_means_readable :
    Registry.builtin.check oversold byStochastic = [] ∧
    ∃ enriched, (Series.ofBars twoBars).withChange.compute (Registry.builtin.analyze oversold byStochastic).specs =
        .ok enriched ∧
      enriched.GoesBack "ma5" ∧ (Operand.field "ma10").ReadableIn enriched := by
  have haccepted : Registry.builtin.check oversold byStochastic = [] := by decide
  have hleaf : ⟨"ma5", .crossUp, .field "ma10"⟩ ∈ oversold.leaves := by
    rw [show oversold.leaves = [⟨"rsi6", .lt, .literal (.number 20)⟩, ⟨"ma5", .crossUp, .field "ma10"⟩,
      ⟨"price", .lt, .field "boll_lower"⟩] from rfl]
    exact List.mem_cons_of_mem _ List.mem_cons_self
  obtain ⟨-, enriched, henriched, hleft, hright, -⟩ :=
    crossing_readable_iff haccepted hleaf rfl (by decide : 2 ≤ twoBars.length)
  refine ⟨haccepted, enriched, henriched, hleft, hright.2 ?_⟩
  rintro ⟨htechnical, -⟩
  exact absurd htechnical (by decide)

/-- That a mean rises above the price to earnings is accepted as a condition. Price to earnings is no column over any bars, and
so the condition never matches. Neither does that a mean rises above the mark of a missing number, which is accepted too. That
the price to earnings falls below the mean is refused. -/
theorem crossing_with_earnings_never_matches :
    Registry.builtin.check (.leaf ⟨"ma5", .crossUp, .field "pe"⟩) [] = [] ∧
    (∀ bars, ∃ enriched, (Series.ofBars bars).withChange.compute
        (Registry.builtin.analyze (.leaf ⟨"ma5", .crossUp, .field "pe"⟩) []).specs = .ok enriched ∧
      enriched.columns.contains "pe" = false ∧
      ∀ snapshot, (Context.series enriched snapshot).matchesLeaf ⟨"ma5", .crossUp, .field "pe"⟩ = false) ∧
    Registry.builtin.check (.leaf ⟨"ma5", .crossUp, .literal (.text "nan")⟩) [] = [] ∧
    (∀ ctx : Context, ctx.matchesLeaf ⟨"ma5", .crossUp, .literal (.text "nan")⟩ = false) ∧
    Registry.builtin.check (.leaf ⟨"pe", .crossDown, .field "ma5"⟩) [] ≠ [] := by
  refine ⟨by decide, fun bars => ?_, rfl, fun ctx => ctx.crosses_of_readsMissing readsMissing_nan rfl, by decide⟩
  obtain ⟨enriched, henriched, honly, -⟩ := Registry.exists_enriched bars (.leaf ⟨"ma5", .crossUp, .field "pe"⟩) []
  have hearnings : ¬(Registry.builtin.isTechnical "pe" = true ∨ "pe" ∈ Spec.barColumns) := by decide
  have hunreadable : (Operand.field "pe").Unreadable := ⟨by decide, by decide⟩
  refine ⟨enriched, henriched, Bool.eq_false_iff.2 fun hpe => hearnings (honly _ hpe), fun snapshot => ?_⟩
  exact Context.crosses_of_unreadable (l := ⟨"ma5", .crossUp, .field "pe"⟩) hunreadable honly snapshot

end EquityScreen
