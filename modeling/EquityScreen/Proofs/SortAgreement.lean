import EquityScreen.Proofs.RouteAgreement

/-!
# Route agreement: order and page

The order of a result is stated by itself first: for each sort the records that have no value last and the others by their values
in the direction of the sort, and at the end by symbol (`inOrder`). The store is given the text of an `ORDER BY`, and what it
reads there puts records in this order (`inOrder_iff`): that those without a value come last follows from a term of its own, since
by itself the store puts nothing before every value. Records of different symbols are arranged in one way, and the page that a
result is cut to is the page of that arrangement which the store answers with (`page_agrees`). A key of a field that is computed
from bars has no column, and the store refuses it (`technical_key_is_refused`).
-/

namespace EquityScreen

/-! ## The order of results -/

/-- The one value is below the other: numbers as numbers, texts by their characters, and numbers below texts. -/
def Value.below : Value → Value → Bool
  | .number x, .number y => x < y
  | .text s, .text t => s < t
  | .number _, .text _ => true
  | .text _, .number _ => false

/-- The sort puts the one record before the other: the value of its column is below, or above where it descends, and no
value is behind any. -/
def ColumnSort.before (s : ColumnSort Column) (a b : Record) : Bool :=
  match a.cell? s.column, b.cell? s.column with
  | none, _ => false
  | some _, none => true
  | some v, some w =>
    match s.direction with
    | .asc => v.below w
    | .desc => w.below v

/-- The sorts put the one record before the other: the first that puts either before the other counts, and then the symbol. -/
def inOrder : List (ColumnSort Column) → Record → Record → Bool
  | [], a, b => a.symbol < b.symbol
  | s :: rest, a, b => s.before a b || (!s.before b a && inOrder rest a b)

/-- The store puts the value below first. -/
theorem cells_eq_lt_iff (v w : Value) : OrderTerm.cells (some v) (some w) = .lt ↔ v.below w = true := by
  have hbelow : v.below w = Relation.lt.holds (.ofValue v) (.ofValue w) := by cases v <;> cases w <;> rfl
  rw [hbelow, OrderTerm.cells]
  split_ifs with hlt hgt <;> simp [hlt]

/-- The terms of a sort put one record before another as the sort does: of a record with a value and one without it the term for
null decides, and of two with values the term for the column. -/
theorem before_iff (s : ColumnSort Column) (a b : Record) :
    s.before a b = true ↔ OrderTerm.compareAll s.terms a b = .lt := by
  obtain ⟨c, d⟩ := s
  simp only [ColumnSort.before, ColumnSort.terms, OrderTerm.compareAll, List.foldr_cons, List.foldr_nil, OrderTerm.compare]
  cases hv : a.cell? c with
  | none => cases hw : b.cell? c <;> cases d <;> simp [hv, hw, OrderTerm.cells, Ordering.then]
  | some v =>
    cases hw : b.cell? c with
    | none => exact iff_of_true rfl rfl
    | some w =>
      cases d with
      | asc => simpa [hv, hw, Ordering.then_eq] using (cells_eq_lt_iff v w).symm
      | desc => simpa [hv, hw, Ordering.then_eq] using (cells_eq_lt_iff w v).symm

/-- The sorts put a kept record before another when their terms do. -/
theorem inOrder_iff {a b : Record} (ha : a.Kept) (hb : b.Kept) (sorts : List (ColumnSort Column)) :
    inOrder sorts a b = true ↔ OrderTerm.compareAll (orderTerms sorts) a b = .lt := by
  induction sorts with
  | nil =>
    show decide (a.symbol < b.symbol) = true ↔ (OrderTerm.cells (some (.text a.symbol)) (some (.text b.symbol))).then .eq = .lt
    rw [Ordering.then_eq, cells_eq_lt_iff]
    rfl
  | cons s rest ih =>
    have hback := before_iff s b a
    rw [OrderTerm.compareAll_terms hb ha, order_swap s.direction.absentLast, Ordering.swap_eq_lt,
      ← OrderTerm.compareAll_terms ha hb] at hback
    show (s.before a b || (!s.before b a && inOrder rest a b)) = true ↔ _
    rw [orderTerms_cons, OrderTerm.compareAll_append, Bool.or_eq_true, Bool.and_eq_true, Bool.not_eq_true', ih, before_iff,
      ← Bool.not_eq_true, hback]
    cases OrderTerm.compareAll s.terms a b <;> simp [Ordering.then]

/-- The records put in the order of terms: each is before all that come after it. -/
def Arranged (terms : List OrderTerm) (rs arranged : List Record) : Prop :=
  arranged.Perm rs ∧ arranged.Pairwise fun a b => OrderTerm.compareAll terms a b = .lt

section Arranged

variable {rs : List Record} (hkept : ∀ r ∈ rs, r.Kept) {keys : List SortKey} {sorts : List (ColumnSort Column)}
  (hsorts : SortsOf keys sorts)
include hkept hsorts

/-- Records of different symbols are arranged by the sort of the store. -/
theorem arranged_mergeSort (hsymbols : (rs.map (·.symbol)).Nodup) :
    Arranged (orderTerms sorts) rs (rs.mergeSort fun a b => (OrderTerm.compareAll (orderTerms sorts) a b).isLE) := by
  rw [mergeSort_orderTerms hsorts hkept]
  have hperm := List.mergeSort_perm rs fun a b => (Record.compareRows keys a b).isLE
  have hdistinct := List.pairwise_map.1 ((hperm.map Record.symbol).nodup_iff.2 hsymbols)
  have hsorted := List.pairwise_mergeSort (order_trans (Record.compareRows keys)) (order_total _) rs
  refine ⟨hperm, (hsorted.and hdistinct).imp_of_mem fun {a b} ha hb ⟨hle, hne⟩ => ?_⟩
  rw [compareAll_orderTerms hsorts (hkept a (hperm.mem_iff.1 ha)) (hkept b (hperm.mem_iff.1 hb))]
  cases hcmp : Record.compareRows keys a b with
  | lt => rfl
  | eq => exact absurd (Std.LawfulEqCmp.eq_of_compare (Ordering.then_eq_eq.1 hcmp).2) hne
  | gt => rw [hcmp] at hle; exact absurd hle Bool.false_ne_true

/-- There is no other arrangement of records. -/
theorem arranged_unique {l l' : List Record} (h : Arranged (orderTerms sorts) rs l) (h' : Arranged (orderTerms sorts) rs l') :
    l = l' := by
  refine List.Perm.eq_of_pairwise ?_ h.2 h'.2 (h.1.trans h'.1.symm)
  intro a b ha hb hab hba
  have hka := hkept a (h.1.mem_iff.1 ha)
  have hkb := hkept b (h'.1.mem_iff.1 hb)
  rw [compareAll_orderTerms hsorts hka hkb] at hab
  rw [compareAll_orderTerms hsorts hkb hka, order_swap (Record.compareRows keys) b a, hab] at hba
  exact absurd hba (by decide)

end Arranged

/-! ## The page -/

/-- The store that holds the records. -/
def Store.holding (rs : List Record) : Store := { snapshots := .ofList (rs.map fun r => (r.symbol, r)) }

section Holding

variable {rs : List Record}

theorem mem_entries_holding (hsymbols : (rs.map (·.symbol)).Nodup) {e : String × Record} :
    e ∈ (Store.holding rs).snapshots.entries ↔ e.2 ∈ rs ∧ e.2.symbol = e.1 := by
  have hnames : ((rs.map fun r => (r.symbol, r)).map (·.1)).Nodup := by rwa [List.map_map]
  rw [← Named.get?_eq_some_iff, Store.holding, Named.get?_ofList_eq_some_iff hnames, List.mem_map]
  constructor
  · rintro ⟨r, hr, heq⟩
    obtain rfl := Prod.ext_iff.1 heq |>.2
    exact ⟨hr, congrArg Prod.fst heq⟩
  · rintro ⟨hr, hname⟩
    exact ⟨e.2, hr, Prod.ext hname rfl⟩

/-- The store that holds kept records is kept. -/
theorem kept_holding (hkept : ∀ r ∈ rs, r.Kept) (hsymbols : (rs.map (·.symbol)).Nodup) : (Store.holding rs).Kept := by
  intro e he
  obtain ⟨hr, hname⟩ := (mem_entries_holding hsymbols).1 he
  exact ⟨hname, hkept e.2 hr⟩

/-- The records of the store are those it holds. -/
theorem perm_records_holding (hkept : ∀ r ∈ rs, r.Kept) (hsymbols : (rs.map (·.symbol)).Nodup) :
    (Store.holding rs).records.Perm rs := by
  have hnodup : (Store.holding rs).records.Nodup := .of_map _ (Store.nodup_symbols (kept_holding hkept hsymbols))
  refine (List.perm_ext_iff_of_nodup hnodup (.of_map _ hsymbols)).2 fun r => ?_
  constructor
  · intro hr
    obtain ⟨e, he, rfl⟩ := List.mem_map.1 hr
    exact ((mem_entries_holding hsymbols).1 he).1
  · intro hr
    exact List.mem_map.2 ⟨(r.symbol, r), (mem_entries_holding hsymbols).2 ⟨hr, rfl⟩, rfl⟩

end Holding

/-- On order and page the two routes agree. Keys of stored fields make an `ORDER BY`, and its text is read as terms that put one
record before another as the keys do: by the values of each key in turn, those without a value last in either direction, and by
symbol. Kept records of different symbols are arranged by the terms in one way; the store answers with the page of that
arrangement, and a result of the same records is cut to the same page with the same total. Where a key is computed from bars
there is no column to order by: the store refuses it by name, and no request with such a key is left to the store. -/
theorem page_agrees {rs : List Record} (hkept : ∀ r ∈ rs, r.Kept) (hsymbols : (rs.map (·.symbol)).Nodup) {keys : List SortKey}
    (hkeys : Registry.builtin.sortIssues keys = []) (page : Page) :
    let asked := (Store.holding rs).sources.query [] (columnSorts keys) page
    ((∀ k ∈ keys, Registry.builtin.isStored k.field = true) →
      ∃ sorts order terms, (columnSorts keys).mapM ColumnSort.check = .ok sorts ∧
        orderBy (columnSorts keys) = .ok order ∧ OrderTerm.ofText? order = some terms ∧
        (∀ a ∈ rs, ∀ b ∈ rs, OrderTerm.compareAll terms a b = .lt ↔ inOrder sorts a b = true) ∧
        (∃ arranged, Arranged terms rs arranged) ∧
        ∀ arranged, Arranged terms rs arranged →
          asked = .ok ((page.cut arranged).map Record.row, rs.length) ∧
            assemble (rs.map Record.row) (keys.map SortKey.normalize) page =
              ((page.cut arranged).map Record.row, rs.length)) ∧
    ((∃ k ∈ keys, Registry.builtin.isStored k.field = false) →
      (∃ k ∈ keys, Registry.builtin.isStored k.field = false ∧ asked = .error (.unknownColumn ⟨canonicalName k.field⟩)) ∧
        ∀ settings q, q.orderBy = keys → ((Store.holding rs).screener settings).routingOf q = .computed) := by
  intro asked
  have hs := kept_holding hkept hsymbols
  constructor
  · intro hstored
    obtain ⟨sorts, hcheck, hsorts⟩ := exists_sorts (exists_column_of_givenSort hstored)
    rw [← columnSorts_eq] at hcheck
    obtain ⟨order, horder, hterms⟩ := exists_orderBy hcheck
    have harranged := arranged_mergeSort hkept hsorts hsymbols
    refine ⟨sorts, order, orderTerms sorts, hcheck, horder, hterms, ?_, ⟨_, harranged⟩, ?_⟩
    · exact fun a ha b hb => (inOrder_iff (hkept a ha) (hkept b hb) sorts).symm
    · intro arranged hother
      have hpage : assemble (rs.map Record.row) (keys.map SortKey.normalize) page =
          ((page.cut arranged).map Record.row, rs.length) := by
        rw [assemble, sortRows_eq_map_mergeSort hsorts hkept hsymbols (List.Perm.refl _), List.length_map,
          arranged_unique hkept hsorts hother harranged, Page.cut, Page.cut, List.map_take, List.map_drop]
      have hrows : (rs.map Record.row).Perm (((Store.holding rs).found []).map Record.row) := by
        rw [Store.found_nil]
        exact ((perm_records_holding hkept hsymbols).map _).symm
      exact ⟨(Store.query_eq_assemble hs rfl hstored page hrows).trans (congrArg Except.ok hpage), hpage⟩
  · intro hnot
    refine ⟨Store.query_of_not_stored rfl ((Registry.sortIssues_eq_nil_iff _ _).1 hkeys) hnot page, ?_⟩
    rintro settings q rfl
    exact (Store.holding rs).routingOf_screener_of_not_stored hnot settings q.preferPushdown

/-! ## Three stocks -/

/-- Three stocks, one without a price to earnings. -/
def threeStocks : List Record := [stock "C" "Gamma" none, stock "A" "Alpha" (some 12.5), stock "B" "Beta" (some 7.5)]

theorem kept_threeStocks : ∀ r ∈ threeStocks, r.Kept := by
  intro r hr c x hx
  have htame : IsTame 12.5 ∧ IsTame 7.5 := ⟨⟨rfl, by decide⟩, rfl, by decide⟩
  rcases List.mem_cons.1 hr with rfl | hr
  · exact absurd hx (by simp [stock])
  rcases List.mem_cons.1 hr with rfl | hr
  · obtain ⟨-, hpe⟩ := Option.ite_none_right_eq_some.1 hx
    exact Option.some.inj hpe ▸ htame.1
  · obtain rfl := List.mem_singleton.1 hr
    obtain ⟨-, hpe⟩ := Option.ite_none_right_eq_some.1 hx
    exact Option.some.inj hpe ▸ htame.2

/-- The second and the third by price to earnings, asked for by an old name, the greatest first. -/
theorem page_agrees_on_three_stocks :
    let page : Page := ⟨2, 1⟩
    let keys : List SortKey := [⟨"pe_ratio", .desc⟩]
    (Store.holding threeStocks).sources.query [] (columnSorts keys) page =
        .ok ([(stock "B" "Beta" (some 7.5)).row, (stock "C" "Gamma" none).row], 3) ∧
      assemble (threeStocks.map Record.row) (keys.map SortKey.normalize) page =
        ([(stock "B" "Beta" (some 7.5)).row, (stock "C" "Gamma" none).row], 3) := by
  intro page keys
  obtain ⟨sorts, order, terms, -, horder, hterms, -, -, hpage⟩ :=
    (@page_agrees _ kept_threeStocks (by decide) keys (by decide +kernel) page).1 (by decide +kernel)
  obtain rfl : "pe IS NULL, pe DESC, symbol ASC" = order := Except.ok.inj horder
  obtain rfl : [.isNull (.number .pe), .descending (.number .pe), .ascending .symbol] = terms := Option.some.inj hterms
  refine hpage [stock "A" "Alpha" (some 12.5), stock "B" "Beta" (some 7.5), stock "C" "Gamma" none] ⟨?_, ?_⟩
  · exact ((List.Perm.swap _ _ []).cons _).trans (List.Perm.swap _ _ [_])
  · decide +kernel

/-- A key that is computed from bars is a sort key like any other to validation, and a result is sorted by it, but the store
has no such column and answers with an error. -/
theorem technical_key_is_refused :
    (∀ r ∈ threeStocks, r.Kept) ∧ (threeStocks.map (·.symbol)).Nodup ∧ Registry.builtin.sortIssues [⟨"ma5", .desc⟩] = [] ∧
      (Store.holding threeStocks).sources.query [] (columnSorts [⟨"ma5", .desc⟩]) ⟨50, 0⟩ = .error (.unknownColumn ⟨"ma5"⟩) ∧
      (Store.holding threeStocks).sources.query [] (columnSorts [⟨"ma5", .desc⟩]) ⟨50, 0⟩ ≠
        .ok (assemble (threeStocks.map Record.row) ([⟨"ma5", .desc⟩].map SortKey.normalize) ⟨50, 0⟩) := by
  have herror : (Store.holding threeStocks).sources.query [] (columnSorts [⟨"ma5", .desc⟩]) ⟨50, 0⟩ =
      .error (.unknownColumn ⟨"ma5"⟩) := rfl
  refine ⟨kept_threeStocks, by decide, by decide +kernel, herror, ?_⟩
  rw [herror]
  exact fun h => nomatch h

end EquityScreen
