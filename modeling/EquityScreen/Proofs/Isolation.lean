import EquityScreen.Proofs.Lemmas.Bars
import EquityScreen.Proofs.Lemmas.Queries

/-!
# A symbol by itself, on its day

What a screen finds of a symbol is determined by the snapshot of the symbol and by its bars between two days, the day of the
screen and so many days before it. Data of other symbols and bars of other days change nothing (`symbols_isolated`): a symbol
without bars between the two days is skipped, and bars that come after the day of the screen are never seen.

The rows that match are those before a page of them is cut and brought up to date (`Store.matched`).
-/

namespace EquityScreen

/-- The day of a screen, which is the last that bars are read of. -/
def Request.lastDay (q : Request) (today : Date) : Date := q.asOf.getD today

/-- The first day that bars are read of. -/
def Request.firstDay (q : Request) (settings : Settings) (today : Date) : Date :=
  (q.lastDay today).minusDays settings.lookbackDays

/-- The predicates that a store is asked for where it answers a condition, if it can. -/
def Registry.predicates? (registry : Registry) (c : Condition) : Option (List (Predicate Column)) :=
  (registry.pushdown c).toOption.bind fun f => (f.mapM Predicate.check).toOption

namespace Store

/-- The screener of a store, for the fields of a registry. -/
def screenerFor (s : Store) (registry : Registry) (settings : Settings) : Screener := ⟨registry, settings, s.sources⟩

/-! ## The rows that match -/

section Request

variable (registry : Registry) (settings : Settings) (today : Date) (q : Request)

/-- The rows that match a request, before a page of them is cut and brought up to date. -/
def matched (s : Store) : List Row :=
  let x := s.screenerFor registry settings
  match x.routingOf q with
  | .pushdown => ((registry.predicates? q.conditions.normalize).elim [] s.found).map Record.row
  | .computed =>
    match s.symbols q.marketOnly? settings.universeCap with
    | .ok candidates => (x.outcomes (x.computedScreen today q) candidates).value.rows
    | .error _ => []

/-- A screen that is computed looks at the symbol: it is one of the candidates. -/
def LooksAt (s : Store) (symbol : String) : Prop :=
  (s.screenerFor registry settings).routingOf q = .computed →
    ∃ candidates, s.symbols q.marketOnly? settings.universeCap = .ok candidates ∧ symbol ∈ candidates

/-- What comes of a symbol where the screen is computed. -/
def outcomeOf (s : Store) (symbol : String) : Outcome :=
  (((s.screenerFor registry settings).computedScreen today q).evaluate s.sources symbol).value.outcome

variable {registry settings today q}

theorem matched_of_pushdown {s : Store} (h : (s.screenerFor registry settings).routingOf q = .pushdown) :
    s.matched registry settings today q = ((registry.predicates? q.conditions.normalize).elim [] s.found).map Record.row := by
  unfold matched
  simp only [h]

theorem matched_of_computed {s : Store} (h : (s.screenerFor registry settings).routingOf q = .computed)
    {candidates : List String} (hcandidates : s.symbols q.marketOnly? settings.universeCap = .ok candidates) :
    s.matched registry settings today q = ((s.screenerFor registry settings).outcomes
      ((s.screenerFor registry settings).computedScreen today q) candidates).value.rows := by
  unfold matched
  simp only [h, hcandidates]

/-- An answer is a page of the rows that match, brought up to date, and counts all of them. -/
theorem run_matched {s : Store} {a : Response} (ha : ((s.screenerFor registry settings).run today q).run.value = .ok a) :
    a.total = (s.matched registry settings today q).length ∧ ∃ rows, rows.Perm (s.matched registry settings today q) ∧
      a.items = (s.screenerFor registry settings).refreshed ((Page.ofRequest q.limit q.offset).cut rows) := by
  have haccepted := Screener.accepted_of_run ha
  cases hrouting : (s.screenerFor registry settings).routingOf q with
  | pushdown =>
    rw [Screener.run_of_pushdown haccepted hrouting] at ha
    obtain ⟨f, ps, order, hf, hps, rfl⟩ := Screener.pushedAnswer_eq_ok s.over_sources ha
    have hfilter : registry.pushdown q.conditions.normalize = .ok f := hf
    have hpredicates : registry.predicates? q.conditions.normalize = some ps := by
      rw [Registry.predicates?, hfilter]
      simp only [Except.toOption, Option.bind_some, hps]
    rw [matched_of_pushdown hrouting, hpredicates, Option.elim_some]
    exact ⟨(List.length_map _).symm, (s.matching ps order).map Record.row, (List.mergeSort_perm _ _).map _, rfl⟩
  | computed =>
    rw [Screener.run_of_computed haccepted hrouting] at ha
    obtain ⟨candidates, hcandidates, rfl⟩ := Screener.computedAnswer_eq_ok s.over_sources ha
    rw [matched_of_computed hrouting hcandidates]
    exact ⟨rfl, _, perm_sortRows _ _, rfl⟩

section Symbols

variable {s : Store} {symbol : String} {row : Row}

/-- What the store finds of a symbol is seen from the record of the symbol. -/
theorem mem_matched_of_pushdown (hs : s.Kept) (hrouting : (s.screenerFor registry settings).routingOf q = .pushdown) :
    row ∈ s.matched registry settings today q ↔
      ∃ ps r, registry.predicates? q.conditions.normalize = some ps ∧ s.snapshots.get? row.symbol = some r ∧
        ps.all r.satisfies = true ∧ r.row = row := by
  rw [matched_of_pushdown hrouting, List.mem_map]
  cases registry.predicates? q.conditions.normalize with
  | none => simp
  | some ps =>
    rw [Option.elim_some]
    constructor
    · rintro ⟨r, hr, rfl⟩
      obtain ⟨hmem, hsatisfies⟩ := List.mem_filter.1 hr
      exact ⟨ps, r, rfl, (get?_snapshots_eq_some_iff hs).2 ⟨hmem, rfl⟩, hsatisfies, rfl⟩
    · rintro ⟨_, r, ⟨⟩, hget, hsatisfies, hrow⟩
      exact ⟨r, List.mem_filter.2 ⟨((get?_snapshots_eq_some_iff hs).1 hget).1, hsatisfies⟩, hrow⟩

/-- What a computed screen finds is what the symbols are evaluated to. -/
theorem row?_of_mem_matched (hdeadline : settings.deadline = none)
    (hrouting : (s.screenerFor registry settings).routingOf q = .computed)
    (hrow : row ∈ s.matched registry settings today q) :
    (s.outcomeOf registry settings today q row.symbol).row? = some row := by
  cases hcandidates : s.symbols q.marketOnly? settings.universeCap with
  | error e =>
    unfold matched at hrow
    simp only [hrouting, hcandidates] at hrow
    exact absurd hrow List.not_mem_nil
  | ok candidates =>
    rw [matched_of_computed hrouting hcandidates, Screener.rows_outcomes_eq _ _ hdeadline] at hrow
    obtain ⟨symbol, -, hrow⟩ := List.mem_filterMap.1 hrow
    rwa [ComputedScreen.symbol_of_evaluate hrow]

/-- What a computed screen finds of a symbol that it looks at is what the symbol is evaluated to. -/
theorem mem_matched_of_computed (hdeadline : settings.deadline = none)
    (hrouting : (s.screenerFor registry settings).routingOf q = .computed)
    (hlooks : s.LooksAt registry settings q row.symbol) :
    row ∈ s.matched registry settings today q ↔
      (s.outcomeOf registry settings today q row.symbol).row? = some row := by
  refine ⟨row?_of_mem_matched hdeadline hrouting, fun hrow => ?_⟩
  obtain ⟨candidates, hcandidates, hmem⟩ := hlooks hrouting
  rw [matched_of_computed hrouting hcandidates, Screener.rows_outcomes_eq _ _ hdeadline]
  exact List.mem_filterMap.2 ⟨_, hmem, hrow⟩

end Symbols

/-! ## Two stores -/

section Agreement

variable {X Y : Store} {symbol : String} (hday : (q.lastDay today).IsDay)
include hday

/-- A symbol of which two stores have the same is evaluated to the same, call by call. -/
theorem evaluate_eq (hX : X.Sound symbol) (hY : Y.Sound symbol) (hclosed : X.isClosed = Y.isClosed)
    (hrecord : X.snapshots.get? symbol = Y.snapshots.get? symbol)
    (hbars : X.SameBars Y symbol (q.firstDay settings today) (q.lastDay today)) :
    ((X.screenerFor registry settings).computedScreen today q).evaluate X.sources symbol =
      ((Y.screenerFor registry settings).computedScreen today q).evaluate Y.sources symbol := by
  let screen := (X.screenerFor registry settings).computedScreen today q
  have hsnapshot : X.sources.snapshot symbol = Y.sources.snapshot symbol := by
    simp only [sources, Store.get?, answer, hclosed, hrecord]
  have hseries : X.sources.bars symbol screen.start screen.finish = Y.sources.bars symbol screen.start screen.finish :=
    congrArg (BarAnswer.mk · false) (hbars.series?_eq hday hclosed hX hY)
  show screen.evaluate X.sources symbol = screen.evaluate Y.sources symbol
  simp only [ComputedScreen.evaluate, hsnapshot, hseries]

/-- A symbol of which two stores have the same, and which both look at, is found in both in the same row or in none. -/
theorem mem_matched_iff (hdeadline : settings.deadline = none) (hX : X.Sound symbol) (hY : Y.Sound symbol)
    (hlooksX : X.LooksAt registry settings q symbol) (hlooksY : Y.LooksAt registry settings q symbol)
    (hrecord : X.snapshots.get? symbol = Y.snapshots.get? symbol)
    (hbars : X.SameBars Y symbol (q.firstDay settings today) (q.lastDay today)) {row : Row} (hrow : row.symbol = symbol) :
    row ∈ X.matched registry settings today q ↔ row ∈ Y.matched registry settings today q := by
  subst hrow
  cases hrouting : (X.screenerFor registry settings).routingOf q with
  | pushdown => rw [mem_matched_of_pushdown hX.kept hrouting, mem_matched_of_pushdown hY.kept hrouting, hrecord]
  | computed =>
    have hclosed : X.isClosed = Y.isClosed := by
      obtain ⟨_, hopenX, -⟩ := hlooksX hrouting
      obtain ⟨_, hopenY, -⟩ := hlooksY hrouting
      exact (answer_eq_ok hopenX).1.trans (answer_eq_ok hopenY).1.symm
    have houtcome : X.outcomeOf registry settings today q row.symbol = Y.outcomeOf registry settings today q row.symbol :=
      congrArg (·.value.outcome) (evaluate_eq hday hX hY hclosed hrecord hbars)
    rw [mem_matched_of_computed hdeadline hrouting hlooksX, mem_matched_of_computed (s := Y) hdeadline hrouting hlooksY,
      houtcome]

/-- A symbol without bars between the two days is skipped where bars are needed, and is otherwise judged by its snapshot. -/
theorem outcome_of_noBars (hX : X.Sound symbol) (hnone : X.NoBars symbol (q.firstDay settings today) (q.lastDay today)) :
    let screen := (X.screenerFor registry settings).computedScreen today q
    X.outcomeOf registry settings today q symbol =
      if screen.analysis.needsSeries then .skipped else screen.ofSnapshot symbol (X.sources.snapshotOf symbol) := by
  intro screen
  have hseries : (X.sources.bars symbol screen.start screen.finish).series = none := hnone.series?_eq_none hday hX
  rw [outcomeOf, ComputedScreen.evaluate_value, hseries]
  cases screen.analysis.needsSeries <;> rfl

/-- Where a computed screen needs bars, it finds no row of a symbol without bars between the two days. -/
theorem symbol_ne_of_mem_matched (hdeadline : settings.deadline = none) (hX : X.Sound symbol)
    (hnone : X.NoBars symbol (q.firstDay settings today) (q.lastDay today))
    (hrouting : (X.screenerFor registry settings).routingOf q = .computed)
    (hseries : ((X.screenerFor registry settings).computedScreen today q).analysis.needsSeries = true) {row : Row}
    (hrow : row ∈ X.matched registry settings today q) : row.symbol ≠ symbol := by
  rintro rfl
  have hskipped : X.outcomeOf registry settings today q row.symbol = .skipped :=
    (outcome_of_noBars hday hX hnone).trans (if_pos hseries)
  have hfound := row?_of_mem_matched hdeadline hrouting hrow
  rw [hskipped] at hfound
  exact nomatch hfound

/-- With other bars, which are the same between the two days, a request has the same answer, after the same calls. -/
theorem run_eq_of_sameBars {bars : Named (Named DailyBar)} (hX : ∀ symbol, X.Sound symbol)
    (hY : ∀ symbol, ({ X with bars := bars } : Store).Sound symbol)
    (hbars : ∀ symbol, X.SameBars { X with bars := bars } symbol (q.firstDay settings today) (q.lastDay today)) :
    (X.screenerFor registry settings).run today q =
      (({ X with bars := bars } : Store).screenerFor registry settings).run today q := by
  let Y : Store := { X with bars := bars }
  let screen := (X.screenerFor registry settings).computedScreen today q
  have hcompute : (X.screenerFor registry settings).compute today q q.conditions.normalize (q.orderBy.map SortKey.normalize) =
      (Y.screenerFor registry settings).compute today q q.conditions.normalize (q.orderBy.map SortKey.normalize) := by
    refine congrArg (Screener.ask _ _ >>= ·) (funext fun candidates => ?_)
    have houtcomes : (X.screenerFor registry settings).outcomes screen candidates =
        (Y.screenerFor registry settings).outcomes screen candidates := by
      refine Screener.outcomes_congr ?_ fun symbol _ => ?_
      · rfl
      · exact evaluate_eq hday (hX symbol) (hY symbol) rfl rfl (hbars symbol)
    exact congrArg (fun found : Traced Matches => (liftM found : Screening Matches)) houtcomes
  unfold Screener.run
  simp only [hcompute]
  rfl

end Agreement

end Request

end Store

/-- Symbols are isolated, and a screen sees nothing of the time after its day. An answer is a page of the rows that match,
brought up to date, and counts all of them. Where two stores have the same record of a symbol and the same bars from the first
day to the last, and the symbol is looked at in both, a row of the symbol matches in the one if and only if it does in the
other, whatever else they hold. A symbol without bars between these days is skipped where bars are needed. With all other bars
exchanged, those after the day of the screen and those before its first day, the answer and the calls made for it are the same.
-/
theorem symbols_isolated (registry : Registry) {settings : Settings} (hdeadline : settings.deadline = none) {today : Date}
    {q : Request} (hday : (q.lastDay today).IsDay) :
    (∀ (s : Store) (a : Response), ((s.screenerFor registry settings).run today q).run.value = .ok a →
      a.total = (s.matched registry settings today q).length ∧ ∃ rows, rows.Perm (s.matched registry settings today q) ∧
        a.items = (s.screenerFor registry settings).refreshed ((Page.ofRequest q.limit q.offset).cut rows)) ∧
    (∀ (X Y : Store) (symbol : String), X.Sound symbol → Y.Sound symbol → X.LooksAt registry settings q symbol →
      Y.LooksAt registry settings q symbol → X.snapshots.get? symbol = Y.snapshots.get? symbol →
      X.SameBars Y symbol (q.firstDay settings today) (q.lastDay today) → ∀ row : Row, row.symbol = symbol →
        (row ∈ X.matched registry settings today q ↔ row ∈ Y.matched registry settings today q)) ∧
    (∀ (s : Store) (symbol : String), s.Sound symbol → s.NoBars symbol (q.firstDay settings today) (q.lastDay today) →
      let screen := (s.screenerFor registry settings).computedScreen today q
      (s.outcomeOf registry settings today q symbol =
        if screen.analysis.needsSeries then .skipped else screen.ofSnapshot symbol (s.sources.snapshotOf symbol)) ∧
      ((s.screenerFor registry settings).routingOf q = .computed → screen.analysis.needsSeries = true →
        ∀ row ∈ s.matched registry settings today q, row.symbol ≠ symbol)) ∧
    ∀ (s : Store) (bars : Named (Named DailyBar)), (∀ symbol, s.Sound symbol) →
      (∀ symbol, ({ s with bars := bars } : Store).Sound symbol) →
      (∀ symbol, s.SameBars { s with bars := bars } symbol (q.firstDay settings today) (q.lastDay today)) →
      (s.screenerFor registry settings).run today q =
        (({ s with bars := bars } : Store).screenerFor registry settings).run today q := by
  refine ⟨fun s a => Store.run_matched, ?_, ?_, ?_⟩
  · intro X Y symbol hX hY hlooksX hlooksY hrecord hbars row
    exact Store.mem_matched_iff hday hdeadline hX hY hlooksX hlooksY hrecord hbars
  · intro s symbol hs hnone
    refine ⟨Store.outcome_of_noBars hday hs hnone, fun hrouting hseries row => ?_⟩
    exact Store.symbol_ne_of_mem_matched hday hdeadline hs hnone hrouting hseries
  · intro s bars hs hbars hsame
    exact Store.run_eq_of_sameBars hday hs hbars hsame

/-- A day of trading at a closing price of 10. -/
def tenOn (symbol day : String) : DailyBar := ⟨symbol, day, 10.0, 11.0, 9.0, 10.0, 100.0, none⟩

/-- A record of nothing but the symbol. -/
def bare (symbol : String) : Record := ⟨symbol, fun _ => none, fun _ => none⟩

/-- A store of two symbols, one of which has a bar of a later day. -/
def withLaterBar : Store :=
  { snapshots := .ofList [("A", (bare "A").stored), ("B", (bare "B").stored)]
    bars := .ofList [("A", .ofList [("2024-01-04", tenOn "A" "2024-01-04"), ("2024-01-09", tenOn "A" "2024-01-09")]),
      ("B", .ofList [("2024-01-03", tenOn "B" "2024-01-03")])] }

/-- A store of one of the symbols, with a bar of an earlier day. -/
def withEarlierBar : Store :=
  { snapshots := .ofList [("A", (bare "A").stored)]
    bars := .ofList [("A", .ofList [("2023-06-01", tenOn "A" "2023-06-01"), ("2024-01-04", tenOn "A" "2024-01-04")])] }

/-- The symbols with a mean closing price of 5 or more. -/
def dear : Request :=
  { market := "all", asOf := some ⟨2024, 1, 5⟩, conditions := .leaf ⟨"ma5", .gte, .literal (.number 5.0)⟩ }

theorem sound_withLaterBar : withLaterBar.Sound "A" := by
  have hwrites : [Store.Write.snapshot (bare "A"), .snapshot (bare "B"), .bars [tenOn "A" "2024-01-04",
      tenOn "A" "2024-01-09", tenOn "B" "2024-01-03"]].foldlM Store.write {} = .ok withLaterBar := rfl
  refine ⟨Store.kept_of_writes hwrites, Store.barsKept_of_writes hwrites, fun bars hbars day b hday => ?_⟩
  obtain rfl := Option.some.inj hbars
  rcases List.mem_cons.1 ((Named.get?_eq_some_iff _ day b).1 hday) with he | he
  · exact ⟨⟨2024, 1, 4⟩, by constructor <;> decide, (Prod.mk.inj he).1⟩
  · exact ⟨⟨2024, 1, 9⟩, by constructor <;> decide, (Prod.mk.inj (List.mem_singleton.1 he)).1⟩

theorem sound_withEarlierBar : withEarlierBar.Sound "A" := by
  have hwrites : [Store.Write.snapshot (bare "A"), .bars [tenOn "A" "2023-06-01", tenOn "A" "2024-01-04"]].foldlM
      Store.write {} = .ok withEarlierBar := rfl
  refine ⟨Store.kept_of_writes hwrites, Store.barsKept_of_writes hwrites, fun bars hbars day b hday => ?_⟩
  obtain rfl := Option.some.inj hbars
  rcases List.mem_cons.1 ((Named.get?_eq_some_iff _ day b).1 hday) with he | he
  · exact ⟨⟨2023, 6, 1⟩, by constructor <;> decide, (Prod.mk.inj he).1⟩
  · exact ⟨⟨2024, 1, 4⟩, by constructor <;> decide, (Prod.mk.inj (List.mem_singleton.1 he)).1⟩

/-- The two stores have the same bar of the symbol from the second to the fifth of January. -/
theorem sameBars_laterBar_earlierBar : withLaterBar.SameBars withEarlierBar "A" ⟨2024, 1, 2⟩ ⟨2024, 1, 5⟩ := by
  intro d hday hfirst hlast
  simp only [Date.le, Bool.or_eq_true, Bool.and_eq_true, decide_eq_true_eq, beq_iff_eq] at hfirst hlast
  have hread : Date.readStored? d.toText = some d :=
    (Date.readStored?_toText ⟨by omega, by omega, by omega, by omega⟩).trans hday
  have hne : ∀ (text : String) (d' : Date), Date.readStored? text = some d' → d' ≠ d → text ≠ d.toText := by
    rintro _ d' hd' hd rfl
    exact hd (Option.some.inj (hd'.symm.trans hread))
  have hlater := hne "2024-01-09" ⟨2024, 1, 9⟩ rfl (by rintro rfl; simp at hlast)
  have hearlier := hne "2023-06-01" ⟨2023, 6, 1⟩ rfl (by rintro rfl; simp at hfirst)
  show ([("2024-01-04", tenOn "A" "2024-01-04"), ("2024-01-09", tenOn "A" "2024-01-09")].find? (·.1 == d.toText)).map (·.2) =
    ([("2023-06-01", tenOn "A" "2023-06-01"), ("2024-01-04", tenOn "A" "2024-01-04")].find? (·.1 == d.toText)).map (·.2)
  simp [List.find?_cons, hlater, hearlier]

/-- Bars begin three days before the day of a screen. -/
def threeDaysBack : Settings := { lookbackDays := 3 }

/-- The row of the symbol in the one store is its row in the other. -/
theorem stock_by_itself :
    ∃ row : Row, row.symbol = "A" ∧ row ∈ withLaterBar.matched .builtin threeDaysBack ⟨2024, 6, 1⟩ dear ∧
      row ∈ withEarlierBar.matched .builtin threeDaysBack ⟨2024, 6, 1⟩ dear := by
  have hfound : (withEarlierBar.outcomeOf .builtin threeDaysBack ⟨2024, 6, 1⟩ dear "A").row?.isSome = true := by decide +kernel
  have hlater : withLaterBar.LooksAt .builtin threeDaysBack dear "A" := fun _ => ⟨["A", "B"], rfl, by decide⟩
  have hearlier : withEarlierBar.LooksAt .builtin threeDaysBack dear "A" := fun _ => ⟨["A"], rfl, by decide⟩
  obtain ⟨row, hrow⟩ := Option.isSome_iff_exists.1 hfound
  have hsymbol : row.symbol = "A" := ComputedScreen.symbol_of_evaluate hrow
  have hmatched : row ∈ withEarlierBar.matched .builtin threeDaysBack ⟨2024, 6, 1⟩ dear := by
    refine (Store.mem_matched_of_computed rfl rfl (hsymbol ▸ hearlier)).2 ?_
    rw [hsymbol]
    exact hrow
  have hfirst : dear.firstDay threeDaysBack ⟨2024, 6, 1⟩ = ⟨2024, 1, 2⟩ := rfl
  have hday : (dear.lastDay ⟨2024, 6, 1⟩).IsDay := rfl
  have hisolated := (symbols_isolated .builtin (show threeDaysBack.deadline = none from rfl) hday).2.1 withLaterBar
    withEarlierBar "A" sound_withLaterBar sound_withEarlierBar hlater hearlier
  rw [hfirst] at hisolated
  have hiff := hisolated rfl sameBars_laterBar_earlierBar row hsymbol
  exact ⟨row, hsymbol, hiff.2 hmatched, hmatched⟩

end EquityScreen
