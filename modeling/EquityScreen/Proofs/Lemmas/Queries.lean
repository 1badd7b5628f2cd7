import EquityScreen.Proofs.Lemmas.Checks
import EquityScreen.Proofs.Lemmas.Orders
import EquityScreen.Proofs.Lemmas.Pages
import EquityScreen.Proofs.Lemmas.Runs
import EquityScreen.Proofs.Lemmas.Statements

/-!
# The two ways to rows

What the store answers to a query, and what a computed screen finds in the same store, both said of the records. For stored
sort keys the store cuts the page that a result of the same rows is cut to (`query_eq_assemble`), and where no bars are
needed a computed screen finds the rows of the records that its condition holds of (`rows_of_records`). Over a store whose
snapshots, bars and quotes may fail, each of the two answers is one equation (`Screener.pushedAnswer_eq_ok`,
`Screener.computedAnswer_eq_ok`).
-/

namespace EquityScreen

/-! ## Columns of sort keys -/

/-- A stored name has a column. -/
theorem exists_column_of_isStored {name : String} (h : Registry.builtin.isStored name = true) :
    ∃ c, Column.ofName? (canonicalName name) = some c := by
  obtain ⟨d, hd, hc⟩ := Registry.isStored_iff.1 h
  obtain ⟨hmem, hname⟩ := Registry.mem_of_resolve? hd
  obtain ⟨c, hcol, -, -⟩ := column_of_storedField hmem hc
  exact ⟨c, hname ▸ hcol⟩

/-- A known name that is not stored has no column. -/
theorem no_column_of_not_isStored {name : String} (hknown : (Registry.builtin.resolve? name).isSome = true)
    (h : Registry.builtin.isStored name = false) : Column.ofName? (canonicalName name) = none := by
  have hall : ∀ d ∈ Catalog.all, d.category = .technical → Column.ofName? d.name = none := by decide
  obtain ⟨d, hd⟩ := Option.isSome_iff_exists.1 hknown
  obtain ⟨hmem, hname⟩ := Registry.mem_of_resolve? hd
  rw [← hname]
  refine hall d hmem ?_
  by_contra hc
  rw [Registry.isStored_iff.2 ⟨d, hd, hc⟩] at h
  exact absurd h (by decide)

/-- Every key that a screen sorts by has a column when the given ones are stored. -/
theorem exists_column_of_givenSort {keys : List SortKey} (h : ∀ k ∈ keys, Registry.builtin.isStored k.field = true) :
    ∀ k ∈ givenSort (keys.map SortKey.normalize), ∃ c, Column.ofName? k.field = some c := by
  intro k hk
  unfold givenSort at hk
  split at hk
  · rw [List.mem_singleton.1 hk]
    exact ⟨.number .totalMv, by decide⟩
  · obtain ⟨k', hk', rfl⟩ := List.mem_map.1 hk
    exact exists_column_of_isStored (h k' hk')

/-- Sorts of which one has no column are refused, and one that has none is named. -/
theorem mapM_check_error {sorts : List (ColumnSort String)} (h : ∃ s ∈ sorts, Column.ofName? s.column = none) :
    ∃ s ∈ sorts, Column.ofName? s.column = none ∧ sorts.mapM ColumnSort.check = .error ⟨s.column⟩ := by
  obtain ⟨s, hs, hnone⟩ := h
  have hunknown : (firstUnknown? (sorts.flatMap fun s => [s.column])).isSome = true :=
    List.find?_isSome.2 ⟨s.column, List.mem_flatMap.2 ⟨s, hs, List.mem_singleton_self _⟩, by rw [hnone]; rfl⟩
  obtain ⟨name, hname⟩ := Option.isSome_iff_exists.1 hunknown
  obtain ⟨t, ht, hmem⟩ := List.mem_flatMap.1 (List.mem_of_find?_eq_some hname)
  obtain rfl := List.mem_singleton.1 hmem
  exact ⟨t, ht, by simpa using List.find?_some hname, (RefusedFor.mapM ColumnSort.refused_check sorts ⟨t.column⟩).2 hname⟩

/-! ## Queries of the store -/

namespace Store

variable {s : Store} {f : Filter} {ps : List (Predicate Column)}

/-- The records that satisfy all predicates. -/
def found (s : Store) (ps : List (Predicate Column)) : List Record :=
  s.records.filter fun r => ps.all r.satisfies

/-- Without predicates every record is found. -/
theorem found_nil (s : Store) : s.found [] = s.records := List.filter_true _

/-- The records that satisfy all predicates, in the order of the sorts. -/
def matching (s : Store) (ps : List (Predicate Column)) (order : List (ColumnSort Column)) : List Record :=
  (s.found ps).mergeSort fun a b => (OrderTerm.compareAll (orderTerms order) a b).isLE

/-- What the store makes of the texts of a checked query is a page of the matching records. -/
theorem select_eq {st : Statement} {text : String} {order : List (ColumnSort Column)}
    (hst : st.clauses? = some (Filter.clauses ps)) (htext : OrderTerm.ofText? text = some (orderTerms order)) (page : Page) :
    s.select st text page = s.answer (page.cut (s.matching ps order), (s.found ps).length) := by
  have hfound : s.records.filter (Clause.select (Filter.clauses ps)) = s.found ps :=
    List.filter_congr fun r _ => Clause.select_clauses ps r
  have hlength : (s.matching ps order).length = (s.found ps).length := List.length_mergeSort _
  simp only [select, hst, htext, hfound, ← hlength]
  rfl

/-- A checked query of a page is answered by that page of the matching records. -/
theorem screen_eq {sorts : List (ColumnSort String)} {order : List (ColumnSort Column)} (hf : f.mapM Predicate.check = .ok ps)
    (ho : sorts.mapM ColumnSort.check = .ok order) {limit offset : Int} (hlimit : 0 ≤ limit) (hoffset : 0 ≤ offset) :
    s.screen f sorts limit offset =
      s.answer (Page.cut ⟨limit.toNat, offset.toNat⟩ (s.matching ps order), (s.found ps).length) := by
  have hpage : ¬(limit < 0 ∨ offset < 0) := by omega
  obtain ⟨st, hst, hclauses⟩ := Filter.exists_statement hf
  obtain ⟨text, htext, hterms⟩ := exists_orderBy ho
  rw [← s.select_eq hclauses hterms, screen, if_neg hpage, hst, htext]
  rfl

/-- The same of the rows. -/
theorem query_eq {sorts : List (ColumnSort String)} {order : List (ColumnSort Column)} (hf : f.mapM Predicate.check = .ok ps)
    (ho : sorts.mapM ColumnSort.check = .ok order) (page : Page) :
    s.sources.query f sorts page =
      s.answer ((page.cut (s.matching ps order)).map Record.row, (s.found ps).length) := by
  have hscreen := s.screen_eq hf ho (Int.natCast_nonneg page.limit) (Int.natCast_nonneg page.offset)
  simp only [sources, hscreen, Int.toNat_natCast]
  unfold answer
  cases s.isClosed <;> rfl

/-- A query whose sorts name a column that the table does not have is refused. -/
theorem query_error {sorts : List (ColumnSort String)} {e : UnknownColumn} (hf : f.mapM Predicate.check = .ok ps)
    (ho : sorts.mapM ColumnSort.check = .error e) (page : Page) :
    s.sources.query f sorts page = .error (.unknownColumn e) := by
  have hpage : ¬((page.limit : Int) < 0 ∨ (page.offset : Int) < 0) := by omega
  obtain ⟨st, hst, -⟩ := Filter.exists_statement hf
  simp only [sources, screen, if_neg hpage, hst, orderBy, ho]
  rfl

/-- Whatever query is answered, the answer is a page of the matching records. -/
theorem query_eq_ok {sorts : List (ColumnSort String)} {page : Page} {found : List Row × Nat}
    (h : s.sources.query f sorts page = .ok found) :
    ∃ ps order, f.mapM Predicate.check = .ok ps ∧
      found = ((page.cut (s.matching ps order)).map Record.row, (s.found ps).length) := by
  have hpage : ¬((page.limit : Int) < 0 ∨ (page.offset : Int) < 0) := by omega
  cases hf : f.mapM Predicate.check with
  | error e =>
    simp only [sources, screen, if_neg hpage, Filter.statement, hf] at h
    exact absurd h (by simp [Except.mapError, Except.map, bind, Except.bind])
  | ok ps =>
    cases ho : sorts.mapM ColumnSort.check with
    | error e => exact absurd h (by rw [query_error hf ho]; simp)
    | ok order =>
      rw [query_eq hf ho] at h
      exact ⟨ps, order, rfl, (answer_eq_ok h).2.symm⟩

/-- Sort keys of which one is not stored are refused, and one that is not stored is named. -/
theorem query_of_not_stored (hf : f.mapM Predicate.check = .ok ps) {keys : List SortKey}
    (hknown : ∀ k ∈ keys, (Registry.builtin.resolve? k.field).isSome = true)
    (hnot : ∃ k ∈ keys, Registry.builtin.isStored k.field = false) (page : Page) :
    ∃ k ∈ keys, Registry.builtin.isStored k.field = false ∧
      s.sources.query f (columnSorts keys) page = .error (.unknownColumn ⟨canonicalName k.field⟩) := by
  obtain ⟨k, hk, hstored⟩ := hnot
  have hsorts : columnSorts keys = keys.map fun k => ⟨canonicalName k.field, k.direction⟩ := by
    rw [columnSorts, List.isEmpty_eq_false_iff_exists_mem.2 ⟨k, hk⟩]
    rfl
  have hnone : ∃ sort ∈ columnSorts keys, Column.ofName? sort.column = none := by
    refine ⟨⟨canonicalName k.field, k.direction⟩, ?_, no_column_of_not_isStored (hknown k hk) hstored⟩
    rw [hsorts]
    exact List.mem_map_of_mem hk
  obtain ⟨sort, hsort, hunknown, herror⟩ := mapM_check_error hnone
  rw [hsorts] at hsort
  obtain ⟨k', hk', rfl⟩ := List.mem_map.1 hsort
  refine ⟨k', hk', Bool.eq_false_iff.2 fun hstored' => ?_, query_error hf herror page⟩
  obtain ⟨c, hc⟩ := exists_column_of_isStored hstored'
  exact absurd (hc.symm.trans hunknown) (by simp)

/-- For stored sort keys the store answers with the page that a result of the same rows is cut to. -/
theorem query_eq_assemble (hs : s.Kept) (hf : f.mapM Predicate.check = .ok ps) {keys : List SortKey}
    (hkeys : ∀ k ∈ keys, Registry.builtin.isStored k.field = true) (page : Page) {rows : List Row}
    (hrows : rows.Perm ((s.found ps).map Record.row)) :
    s.sources.query f (columnSorts keys) page = s.answer (assemble rows (keys.map SortKey.normalize) page) := by
  obtain ⟨order, ho, hsorts⟩ := exists_sorts (exists_column_of_givenSort hkeys)
  rw [← columnSorts_eq] at ho
  have hkept : ∀ r ∈ s.found ps, r.Kept := fun r hr => kept_of_mem_records hs (List.mem_of_mem_filter hr)
  have hsymbols : ((s.found ps).map (·.symbol)).Nodup := (nodup_symbols hs).sublist (List.filter_sublist.map _)
  have hsorted := sortRows_eq_map_mergeSort hsorts hkept hsymbols hrows
  rw [query_eq hf ho, assemble, hsorted, hrows.length_eq, List.length_map]
  congr 2
  rw [Page.map_cut]
  rfl

end Store

/-! ## What is computed of a store -/

namespace Store

variable {s : Store}

/-- The snapshot of a record is had by the symbol of the record. -/
theorem snapshotOf_of_mem (hs : s.Kept) (hopen : s.isClosed = false) {r : Record} (hr : r ∈ s.records) :
    s.sources.snapshotOf r.symbol = some r.snapshot := by
  have hget : s.snapshots.get? r.symbol = some r := (get?_snapshots_eq_some_iff hs).2 ⟨hr, rfl⟩
  simp [Sources.snapshotOf, sources, Store.get?, answer, hopen, hget, Except.map]

/-- Without bars a computed screen finds the rows of the records that its condition holds of. -/
theorem rows_of_records (hs : s.Kept) (hopen : s.isClosed = false) (screen : ComputedScreen) {rs : List Record}
    (hrs : ∀ r ∈ rs, r ∈ s.records) :
    ((rs.map (·.symbol)).filterMap fun symbol => (screen.ofSnapshot symbol (s.sources.snapshotOf symbol)).row?) =
      (rs.filter fun r => (Context.snapshot r.snapshot).satisfies screen.conditions).map Record.row := by
  induction rs with
  | nil => rfl
  | cons r rest ih =>
    have hrest := ih fun r hr => hrs r (List.mem_cons_of_mem _ hr)
    have hrow : (screen.ofSnapshot r.symbol (s.sources.snapshotOf r.symbol)).row? =
        if (Context.snapshot r.snapshot).satisfies screen.conditions then some r.row else none := by
      rw [snapshotOf_of_mem hs hopen (hrs r List.mem_cons_self), r.row_eq_ofSnapshot, ComputedScreen.ofSnapshot]
      split <;> rfl
    rw [List.map_cons, List.filterMap_cons, hrow, hrest, List.filter_cons]
    cases (Context.snapshot r.snapshot).satisfies screen.conditions <;> rfl

/-- The candidates of all markets are the symbols of all records, where the cap allows as many. -/
theorem candidates_all (s : Store) {cap : Nat} (hcap : s.records.length ≤ cap) :
    s.sources.candidates none cap = s.answer (s.records.map (·.symbol)) := by
  have hfilter : s.records.filter (fun r => (none : Option String).all fun m => r.text .market == some m) = s.records := by
    rw [List.filter_eq_self]
    intro r _
    rfl
  have hnonneg : ¬((cap : Int) < 0) := by omega
  simp only [sources, symbols, hfilter, limited, if_neg hnonneg, Int.toNat_natCast]
  rw [List.take_of_length_le (by simpa using hcap)]

/-- The candidates of a market are symbols of records, in their order. -/
theorem symbols_sublist {market : Option String} {cap : Int} {candidates : List String}
    (h : s.symbols market cap = .ok candidates) :
    candidates.Sublist ((s.records.filter fun r => market.all fun m => r.text .market == some m).map (·.symbol)) := by
  obtain ⟨-, rfl⟩ := answer_eq_ok h
  unfold limited
  split
  · exact .refl _
  · exact List.take_sublist _ _

/-- No symbol is a candidate twice, and there are no more of them than the cap allows. -/
theorem nodup_symbols_of_market (hs : s.Kept) {market : Option String} {cap : Nat} {candidates : List String}
    (h : s.symbols market cap = .ok candidates) : candidates.Nodup ∧ candidates.length ≤ cap := by
  refine ⟨(nodup_symbols hs).sublist ((symbols_sublist h).trans (List.filter_sublist.map _)), ?_⟩
  obtain ⟨-, rfl⟩ := answer_eq_ok h
  rw [limited, if_neg (by omega), Int.toNat_natCast]
  exact List.length_take_le _ _

end Store

/-! ## Answers over a store -/

/-- Sources that have their candidates and the answers to queries from a store, where they have them. Snapshots, bars and
quotes may be any, late or not, and any of them may fail. -/
structure Sources.Over (sources : Sources) (s : Store) : Prop where
  candidates : ∀ {market cap symbols}, sources.candidates market cap = .ok symbols → s.symbols market cap = .ok symbols
  query : ∀ {f sorts page found}, sources.query f sorts page = .ok found → s.sources.query f sorts page = .ok found

theorem Store.over_sources (s : Store) : s.sources.Over s := ⟨id, id⟩

/-- The items are a page of the symbols that match, in some order, and the total is the number of these symbols. -/
def Response.Shows (a : Response) (matched : List String) : Prop :=
  a.total = matched.length ∧ ∃ sorted, sorted.Perm matched ∧ a.items.map (·.symbol) = a.page.cut sorted

namespace Screener

variable {x : Screener} {s : Store} {today : Date} {q : Request} {a : Response}

/-- The page of rows brought up to date shows the symbols on the page. -/
theorem symbols_refreshed_cut (x : Screener) (page : Page) (rows : List Row) :
    (x.refreshed (page.cut rows)).map (·.symbol) = page.cut (rows.map (·.symbol)) := by
  rw [x.symbols_refreshed, Page.map_cut]

/-- The store answers with a page of the records that it finds, and counts all of them. -/
theorem pushedAnswer_eq_ok (hover : x.sources.Over s) (ha : x.pushedAnswer q = .ok a) :
    ∃ f ps order, x.registry.pushdown q.conditions.normalize = .ok f ∧ f.mapM Predicate.check = .ok ps ∧
      a = ⟨(s.found ps).length,
        x.refreshed ((Page.ofRequest q.limit q.offset).cut ((s.matching ps order).map Record.row)),
        .pushdown, false, (s.found ps).length, 0, Page.ofRequest q.limit q.offset⟩ := by
  obtain ⟨f, hf, ha⟩ := bind_eq_ok ha
  obtain ⟨found, hfound, ha⟩ := bind_eq_ok ha
  obtain rfl := Except.ok.inj ha
  obtain ⟨ps, order, hps, rfl⟩ := Store.query_eq_ok (hover.query (mapError_eq_ok hfound))
  refine ⟨f, ps, order, mapError_eq_ok hf, hps, ?_⟩
  rw [Page.map_cut]

/-- What is computed is answered with a page of the rows that are found of the candidates. -/
theorem computedAnswer_eq_ok (hover : x.sources.Over s) (ha : x.computedAnswer today q = .ok a) :
    ∃ candidates, s.symbols q.marketOnly? x.settings.universeCap = .ok candidates ∧
      let found := (x.outcomes (x.computedScreen today q) candidates).value
      let sorted := sortRows (effectiveSort (q.orderBy.map SortKey.normalize)) found.rows
      a = ⟨found.rows.length, x.refreshed ((Page.ofRequest q.limit q.offset).cut sorted), .computed, found.isPartial,
        found.evaluated, found.skipped, Page.ofRequest q.limit q.offset⟩ := by
  obtain ⟨candidates, hcandidates, ha⟩ := bind_eq_ok ha
  obtain rfl := Except.ok.inj ha
  exact ⟨candidates, hover.candidates (mapError_eq_ok hcandidates), rfl⟩

/-- The store answers with a page of the records that it finds, and the other figures are those of a screen that skips none. -/
theorem shows_of_pushed (hover : x.sources.Over s) (ha : x.pushedAnswer q = .ok a) :
    ∃ f ps, x.registry.pushdown q.conditions.normalize = .ok f ∧ f.mapM Predicate.check = .ok ps ∧
      a.Shows ((s.found ps).map (·.symbol)) ∧ a.routing = .pushdown ∧ a.page = .ofRequest q.limit q.offset ∧
      a.evaluated = a.total ∧ a.skipped = 0 ∧ a.isPartial = false := by
  obtain ⟨f, ps, order, hf, hps, rfl⟩ := pushedAnswer_eq_ok hover ha
  refine ⟨f, ps, hf, hps, ⟨(List.length_map _).symm, (s.matching ps order).map (·.symbol), ?_, ?_⟩, rfl, rfl, rfl, rfl, rfl⟩
  · exact (List.mergeSort_perm _ _).map _
  · rw [symbols_refreshed_cut, List.map_map]
    rfl

/-- What is computed is answered with a page of what is found of the candidates, and with the figures of that. -/
theorem shows_of_computed (hover : x.sources.Over s) (ha : x.computedAnswer today q = .ok a) :
    ∃ candidates, s.symbols q.marketOnly? x.settings.universeCap = .ok candidates ∧
      let found := (x.outcomes (x.computedScreen today q) candidates).value
      a.Shows (found.rows.map (·.symbol)) ∧ a.routing = .computed ∧ a.page = .ofRequest q.limit q.offset ∧
        a.evaluated = found.evaluated ∧ a.skipped = found.skipped ∧ a.isPartial = found.isPartial := by
  obtain ⟨candidates, hcandidates, rfl⟩ := computedAnswer_eq_ok hover ha
  refine ⟨candidates, hcandidates, ⟨(List.length_map _).symm, ?_⟩, rfl, rfl, rfl, rfl, rfl⟩
  exact ⟨_, (perm_sortRows _ _).map _, symbols_refreshed_cut _ _ _⟩

end Screener
end EquityScreen
