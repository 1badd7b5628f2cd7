import EquityScreen.Proofs.RouteAgreement

/-!
# The market of a request

A computed screen looks at the symbols of the requested market only, so every row that it finds is of that market. The store
is asked by the condition alone: what it answers is the same for every market, and is of the requested one just when all
records that match the condition are (`market_honoured_iff`). A store of two markets is a case where they are not
(`other_market_is_shown`).
-/

namespace EquityScreen
namespace Store

/-- The symbol has a snapshot, and that is of the market. -/
def hasMarket (s : Store) (market symbol : String) : Bool :=
  (s.snapshots.get? symbol).bind (·.text .market) == some market

/-- The records that match the condition where the store is asked by it. -/
def foundBy (s : Store) (c : Condition) : List Record :=
  match Registry.builtin.pushdown c.normalize with
  | .ok f =>
    match f.mapM Predicate.check with
    | .ok ps => s.found ps
    | .error _ => []
  | .error _ => []

/-- The symbols that an answer to the request finds, on its page or not. -/
def counted (s : Store) (settings : Settings) (today : Date) (q : Request) : List String :=
  let x := s.screener settings
  match x.routingOf q with
  | .pushdown => (s.foundBy q.conditions).map (·.symbol)
  | .computed =>
    match s.symbols q.marketOnly? settings.universeCap with
    | .ok candidates => (x.outcomes (x.computedScreen today q) candidates).value.rows.map (·.symbol)
    | .error _ => []

end Store

/-- The answer is of the market: the symbols of its rows are, and so are those that its total counts. -/
def Response.Honours (a : Response) (s : Store) (market : String) (counted : List String) : Prop :=
  (∀ r ∈ a.items, s.hasMarket market r.symbol = true) ∧ ∀ symbol ∈ counted, s.hasMarket market symbol = true

namespace Store

variable {s : Store} {settings : Settings} {today : Date} {q : Request}

/-- The symbol of a record has the market of the record. -/
theorem hasMarket_of_mem (hs : s.Kept) {r : Record} (hr : r ∈ s.records) (market : String) :
    s.hasMarket market r.symbol = true ↔ r.text .market = some market := by
  have hget : s.snapshots.get? r.symbol = some r := (get?_snapshots_eq_some_iff hs).2 ⟨hr, rfl⟩
  rw [hasMarket, hget, Option.bind_some, beq_iff_eq]

theorem foundBy_sublist (s : Store) (c : Condition) : (s.foundBy c).Sublist s.records := by
  unfold foundBy
  split
  · split
    · exact List.filter_sublist
    · exact List.nil_sublist _
  · exact List.nil_sublist _

/-- The candidates of a market are of the market. -/
theorem hasMarket_of_symbols (hs : s.Kept) {market : String} {cap : Nat} {candidates : List String}
    (h : s.symbols (some market) cap = .ok candidates) : ∀ symbol ∈ candidates, s.hasMarket market symbol = true := by
  intro symbol hsymbol
  obtain ⟨r, hr, rfl⟩ := List.mem_map.1 ((symbols_sublist h).subset hsymbol)
  obtain ⟨hmem, hmarket⟩ := List.mem_filter.1 hr
  exact (hasMarket_of_mem hs hmem market).2 (beq_iff_eq.1 hmarket)

theorem counted_of_pushdown (h : (s.screener settings).routingOf q = .pushdown) :
    s.counted settings today q = (s.foundBy q.conditions).map (·.symbol) := by
  unfold counted
  simp only [h]

theorem counted_of_computed (h : (s.screener settings).routingOf q = .computed) {candidates : List String}
    (hcandidates : s.symbols q.marketOnly? settings.universeCap = .ok candidates) :
    s.counted settings today q =
      ((s.screener settings).outcomes ((s.screener settings).computedScreen today q) candidates).value.rows.map
        (·.symbol) := by
  unfold counted
  simp only [h, hcandidates]

/-- No symbol is counted twice. -/
theorem nodup_counted (hs : s.Kept) (settings : Settings) (today : Date) (q : Request) :
    (s.counted settings today q).Nodup := by
  unfold counted
  dsimp only
  split
  · exact (nodup_symbols hs).sublist ((s.foundBy_sublist q.conditions).map _)
  · split
    · rename_i candidates hcandidates
      have hfound := (s.screener settings).symbols_outcomes_sublist ((s.screener settings).computedScreen today q) candidates
      exact (nodup_symbols_of_market hs hcandidates).1.sublist hfound
    · exact List.nodup_nil

/-- The store answers with a page of the records that it finds by the condition. -/
theorem pushedAnswer_counted {a : Response} (ha : (s.screener settings).pushedAnswer q = .ok a) :
    a.routing = .pushdown ∧ a.total = ((s.foundBy q.conditions).map (·.symbol)).length ∧
      ∃ l, l.Perm ((s.foundBy q.conditions).map (·.symbol)) ∧
        a.items.map (·.symbol) = (Page.ofRequest q.limit q.offset).cut l := by
  obtain ⟨f, ps, hf, hps, ⟨htotal, l, hl, hitems⟩, hroute, hpage, -⟩ := Screener.shows_of_pushed s.over_sources ha
  have hfoundBy : s.foundBy q.conditions = s.found ps := by
    have hpushdown : Registry.builtin.pushdown q.conditions.normalize = .ok f := hf
    rw [foundBy, hpushdown]
    simp only [hps]
  rw [hfoundBy]
  exact ⟨hroute, htotal, l, hl, hpage ▸ hitems⟩

/-- A computed answer is a page of the rows that are found of the candidates. -/
theorem computedAnswer_counted {a : Response} (ha : (s.screener settings).computedAnswer today q = .ok a) :
    ∃ candidates, s.symbols q.marketOnly? settings.universeCap = .ok candidates ∧
      let symbols := ((s.screener settings).outcomes ((s.screener settings).computedScreen today q) candidates).value.rows.map
        (·.symbol)
      a.routing = .computed ∧ a.total = symbols.length ∧
        ∃ l, l.Perm symbols ∧ a.items.map (·.symbol) = (Page.ofRequest q.limit q.offset).cut l := by
  obtain ⟨candidates, hcandidates, ⟨htotal, l, hl, hitems⟩, hroute, hpage, -⟩ := Screener.shows_of_computed s.over_sources ha
  exact ⟨candidates, hcandidates, hroute, htotal, l, hl, hpage ▸ hitems⟩

/-- Every answer is a page of the symbols that are counted, and its total is their number. -/
theorem run_counted {a : Response} (ha : ((s.screener settings).run today q).run.value = .ok a) :
    a.routing = (s.screener settings).routingOf q ∧ a.total = (s.counted settings today q).length ∧
      ∃ l, l.Perm (s.counted settings today q) ∧ a.items.map (·.symbol) = (Page.ofRequest q.limit q.offset).cut l := by
  have haccepted := Screener.accepted_of_run ha
  cases hrouting : (s.screener settings).routingOf q with
  | pushdown =>
    rw [Screener.run_of_pushdown haccepted hrouting] at ha
    rw [counted_of_pushdown hrouting]
    exact pushedAnswer_counted ha
  | computed =>
    rw [Screener.run_of_computed haccepted hrouting] at ha
    obtain ⟨candidates, hcandidates, hanswer⟩ := computedAnswer_counted ha
    rw [counted_of_computed hrouting hcandidates]
    exact hanswer

/-- What is computed is of the market. -/
theorem hasMarket_of_computed (hs : s.Kept) {market : String} (hmarket : q.marketOnly? = some market)
    (hrouting : (s.screener settings).routingOf q = .computed) :
    ∀ symbol ∈ s.counted settings today q, s.hasMarket market symbol = true := by
  intro symbol hsymbol
  unfold counted at hsymbol
  simp only [hrouting] at hsymbol
  split at hsymbol
  · rename_i candidates hcandidates
    rw [hmarket] at hcandidates
    have hfound := (s.screener settings).symbols_outcomes_sublist ((s.screener settings).computedScreen today q) candidates
    exact hasMarket_of_symbols hs hcandidates symbol (hfound.subset hsymbol)
  · exact absurd hsymbol List.not_mem_nil

/-- What the store answers does not depend on the market. -/
theorem run_of_pushdown (hrouting : (s.screener settings).routingOf q = .pushdown) (market : String) :
    ((s.screener settings).run today { q with market }).run.value = ((s.screener settings).run today q).run.value := by
  have hother : (s.screener settings).routingOf { q with market } = .pushdown := hrouting
  rw [Screener.run_value, Screener.run_value, hrouting, hother]
  rfl

end Store

/-- Whether the market of a request is honoured. An answer is a page of the symbols that its total counts, each once. Where
it is computed they are all of the requested market; where the store gives it they are the records that match the condition,
the same for every market, so that the market is honoured just when all these records are of it. -/
theorem market_honoured_iff {s : Store} (hs : s.Kept) {settings : Settings} {today : Date} {q : Request} {market : String}
    (hmarket : q.marketOnly? = some market) {a : Response} (ha : ((s.screener settings).run today q).run.value = .ok a) :
    let counted := s.counted settings today q
    (counted.Nodup ∧ a.total = counted.length ∧
        ∃ l, l.Perm counted ∧ a.items.map (·.symbol) = (Page.ofRequest q.limit q.offset).cut l) ∧
      (a.Honours s market counted ↔
        (a.routing = .pushdown → ∀ r ∈ s.foundBy q.conditions, r.text .market = some market)) ∧
      (a.routing = .pushdown →
        ∀ other, ((s.screener settings).run today { q with market := other }).run.value = .ok a) := by
  intro counted
  obtain ⟨hrouting, htotal, l, hl, hitems⟩ := Store.run_counted ha
  have hshown : ∀ r ∈ a.items, r.symbol ∈ counted := by
    intro r hr
    have hcut : r.symbol ∈ (Page.ofRequest q.limit q.offset).cut l := hitems ▸ List.mem_map_of_mem hr
    exact hl.subset (List.mem_of_mem_drop (List.mem_of_mem_take hcut))
  have hhonours : a.Honours s market counted ↔ ∀ symbol ∈ counted, s.hasMarket market symbol = true :=
    ⟨fun h => h.2, fun h => ⟨fun r hr => h r.symbol (hshown r hr), h⟩⟩
  refine ⟨⟨Store.nodup_counted hs settings today q, htotal, l, hl, hitems⟩, ?_, ?_⟩
  · rw [hhonours, hrouting]
    cases hroute : (s.screener settings).routingOf q with
    | pushdown =>
      have hcounted : counted = (s.foundBy q.conditions).map (·.symbol) := Store.counted_of_pushdown hroute
      have hmem : ∀ r ∈ s.foundBy q.conditions, r ∈ s.records := fun r hr => (s.foundBy_sublist q.conditions).subset hr
      rw [hcounted, List.forall_mem_map]
      constructor
      · intro h _ r hr
        exact (Store.hasMarket_of_mem hs (hmem r hr) market).1 (h r hr)
      · intro h r hr
        exact (Store.hasMarket_of_mem hs (hmem r hr) market).2 (h rfl r hr)
    | computed =>
      have hall := @Store.hasMarket_of_computed s settings today q hs market hmarket hroute
      exact ⟨fun _ h => absurd h (by decide), fun _ => hall⟩
  · intro hpushdown other
    rw [Store.run_of_pushdown (hrouting.symm.trans hpushdown) other]
    exact ha

/-! ## A store of two markets -/

/-- A stock by its market. -/
def listed (symbol market : String) : Record :=
  ⟨symbol, fun c => if c = .market then some market else none, fun _ => none⟩

/-- The store that a stock of each of two markets is written to. -/
def twoMarkets : Store :=
  { snapshots := (Named.empty.insert "A" (listed "A" "CN").stored).insert "B" (listed "B" "US").stored }

/-- A request for one of them. -/
def oneMarket : Request := { market := "CN" }

theorem kept_twoMarkets : twoMarkets.Kept := by
  have hwrites : [Store.Write.snapshot (listed "A" "CN"), .snapshot (listed "B" "US")].foldlM Store.write {} =
      .ok twoMarkets := rfl
  exact Store.kept_of_writes hwrites

/-- Without market values the stocks are in the order of their symbols. -/
theorem query_twoMarkets (page : Page) :
    twoMarkets.sources.query [] (columnSorts []) page = .ok ((page.cut twoMarkets.records).map Record.row, 2) := by
  have hsorted : twoMarkets.matching [] [⟨.number .totalMv, .desc⟩] = twoMarkets.records := by
    rw [Store.matching, Store.found_nil]
    exact List.mergeSort_of_pairwise (by decide)
  rw [@Store.query_eq twoMarkets [] [] (columnSorts []) [⟨.number .totalMv, .desc⟩] rfl rfl page, hsorted]
  rfl

/-- An answer in brief: who gave it, how many symbols it counts and which it shows. -/
def Response.brief (a : Response) : Routing × Nat × List String := (a.routing, a.total, a.items.map (·.symbol))

theorem market_honoured_when_computed :
    let q := { oneMarket with preferPushdown := false }
    ∃ a, ((twoMarkets.screener {}).run ⟨2024, 1, 2⟩ q).run.value = .ok a ∧ a.brief = (.computed, 1, ["A"]) ∧
      a.Honours twoMarkets "CN" (twoMarkets.counted {} ⟨2024, 1, 2⟩ q) := by
  intro q
  have hrun : ((twoMarkets.screener {}).run ⟨2024, 1, 2⟩ q).run.value.map Response.brief = .ok (.computed, 1, ["A"]) := by
    decide +kernel
  obtain ⟨a, ha, hbrief⟩ := map_eq_ok hrun
  refine ⟨a, ha, hbrief, (market_honoured_iff kept_twoMarkets (by decide +kernel) ha).2.1.2 fun hpushdown => ?_⟩
  exact absurd ((congrArg Prod.fst hbrief).symm.trans hpushdown) (by decide)

/-- The store answers a request for one market with the stocks of both. -/
theorem other_market_is_shown :
    twoMarkets.Kept ∧ oneMarket.marketOnly? = some "CN" ∧
      ∃ a, ((twoMarkets.screener {}).run ⟨2024, 1, 2⟩ oneMarket).run.value = .ok a ∧ a.brief = (.pushdown, 2, ["A", "B"]) ∧
        twoMarkets.hasMarket "CN" "B" = false ∧
        ¬a.Honours twoMarkets "CN" (twoMarkets.counted {} ⟨2024, 1, 2⟩ oneMarket) := by
  have hrun : ((twoMarkets.screener {}).run ⟨2024, 1, 2⟩ oneMarket).run.value.map Response.brief =
      .ok (.pushdown, 2, ["A", "B"]) := by
    have hanswer : (twoMarkets.screener {}).pushedAnswer oneMarket =
        (((twoMarkets.sources.query [] (columnSorts []) (Page.ofRequest none 0)).mapError .store).map fun found =>
          ⟨found.2, (twoMarkets.screener {}).refreshed found.1, .pushdown, false, found.2, 0, Page.ofRequest none 0⟩) := rfl
    have hissues : ((twoMarkets.screener {}).issuesOf oneMarket).isEmpty = true := by decide +kernel
    have hrouting : (twoMarkets.screener {}).routingOf oneMarket = .pushdown := by decide +kernel
    rw [Screener.run_value, hissues, if_pos rfl, hrouting, hanswer, query_twoMarkets]
    decide +kernel
  obtain ⟨a, ha, hbrief⟩ := map_eq_ok hrun
  have hother : twoMarkets.hasMarket "CN" "B" = false := by decide +kernel
  refine ⟨kept_twoMarkets, by decide +kernel, a, ha, hbrief, hother, fun h => ?_⟩
  have hshown : "B" ∈ a.items.map (·.symbol) := by
    rw [show a.items.map (·.symbol) = ["A", "B"] from congrArg (fun b => b.2.2) hbrief]
    decide
  obtain ⟨r, hr, hsymbol⟩ := List.mem_map.1 hshown
  have hmarket := h.1 r hr
  rw [hsymbol, hother] at hmarket
  exact absurd hmarket Bool.false_ne_true

end EquityScreen
