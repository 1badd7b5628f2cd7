import Mathlib.Data.List.TakeWhile
import EquityScreen.Proofs.Lemmas.Rows

/-!
# What a screen answers

The answer of a screen, its calls left out, as a sequence of answers (`run_value`): on either route one source is asked for
rows, and the page of them is brought up to date. Bringing rows up to date changes no symbol, and a computed screen finds
rows of its candidates only, each at most once and in their order (`symbols_outcomes_sublist`).
-/

namespace EquityScreen
namespace Screener

/-- The answer of two questions in turn. -/
theorem bind_value {α β : Type} (x : Screening α) (f : α → Screening β) :
    (x >>= f).run.value = x.run.value.bind fun a => (f a).run.value := by
  show (ExceptT.bindCont f x.run.value).value = _
  cases x.run.value <;> rfl

/-- The rows of a page brought up to date. -/
def refreshed (s : Screener) (rows : List Row) : List Row :=
  if rows.isEmpty then rows else enrich (s.sources.quotes (rows.map (·.symbol))) rows

/-- The screen that is carried out symbol by symbol. -/
def computedScreen (s : Screener) (today : Date) (q : Request) : ComputedScreen :=
  let keys := q.orderBy.map SortKey.normalize
  let finish := q.asOf.getD today
  ⟨q.conditions.normalize, s.registry.analyze q.conditions.normalize keys, finish.minusDays s.settings.lookbackDays, finish,
    s.settings.deadline.isSome⟩

/-- The answer that the store gives. -/
def pushedAnswer (s : Screener) (q : Request) : Except ScreenError Response := do
  let keys := q.orderBy.map SortKey.normalize
  let page := Page.ofRequest q.limit q.offset
  let f ← (s.registry.pushdown q.conditions.normalize).mapError .pushdown
  let found ← (s.sources.query f (columnSorts keys) page).mapError .store
  return ⟨found.2, s.refreshed found.1, .pushdown, false, found.2, 0, page⟩

/-- The answer that is computed symbol by symbol. -/
def computedAnswer (s : Screener) (today : Date) (q : Request) : Except ScreenError Response := do
  let keys := q.orderBy.map SortKey.normalize
  let page := Page.ofRequest q.limit q.offset
  let candidates ← (s.sources.candidates q.marketOnly? s.settings.universeCap).mapError .store
  let found := (s.outcomes (s.computedScreen today q) candidates).value
  let cut := assemble found.rows keys page
  return ⟨cut.2, s.refreshed cut.1, .computed, found.isPartial, found.evaluated, found.skipped, page⟩

theorem refresh_value (s : Screener) (rows : List Row) : (s.refresh rows).run.value = .ok (s.refreshed rows) := by
  unfold refresh refreshed
  by_cases h : rows.isEmpty = true
  · rw [if_pos h, if_pos h]
    rfl
  · rw [if_neg h, if_neg h]
    rfl

/-- The issues of a request, under the names of the registry. -/
def issuesOf (s : Screener) (q : Request) : List Issue :=
  s.registry.check q.conditions.normalize (q.orderBy.map SortKey.normalize)

/-- Who answers a request. -/
def routingOf (s : Screener) (q : Request) : Routing :=
  s.registry.planWithHint q.conditions.normalize (q.orderBy.map SortKey.normalize) q.preferPushdown

/-- A request with issues is refused, and any other is answered by the store or computed. -/
theorem run_value (s : Screener) (today : Date) (q : Request) :
    (s.run today q).run.value =
      if (s.issuesOf q).isEmpty then
        match s.routingOf q with
        | .pushdown => s.pushedAnswer q
        | .computed => s.computedAnswer today q
      else .error (.invalid (s.issuesOf q)) := by
  unfold run issuesOf routingOf pushedAnswer computedAnswer
  dsimp only
  generalize s.registry.check q.conditions.normalize (q.orderBy.map SortKey.normalize) = issues
  generalize s.registry.planWithHint q.conditions.normalize (q.orderBy.map SortKey.normalize) q.preferPushdown = routing
  cases issues with
  | cons i rest => rfl
  | nil =>
    rw [if_neg (by decide), if_pos (by decide)]
    cases routing with
    | pushdown =>
      simp only [bind_value, refresh_value]
      cases s.registry.pushdown q.conditions.normalize with
      | error e => rfl
      | ok f =>
        show Except.bind (Except.mapError _ _) _ = Except.bind (Except.mapError _
          (s.sources.query f (columnSorts (q.orderBy.map SortKey.normalize)) (Page.ofRequest q.limit q.offset))) _
        cases s.sources.query f (columnSorts (q.orderBy.map SortKey.normalize)) (Page.ofRequest q.limit q.offset) <;> rfl
    | computed =>
      simp only [bind_value, refresh_value, compute]
      show Except.bind (Except.bind (Except.mapError _ _) _) _ = Except.bind (Except.mapError _ _) _
      cases s.sources.candidates q.marketOnly? s.settings.universeCap <;> rfl

variable {s : Screener} {today : Date} {q : Request}

/-- A request without issues that is left to the store has the answer of the store. -/
theorem run_of_pushdown (haccepted : s.issuesOf q = []) (hrouting : s.routingOf q = .pushdown) :
    (s.run today q).run.value = s.pushedAnswer q := by
  rw [run_value, haccepted, if_pos List.isEmpty_nil, hrouting]

/-- A request without issues that is not left to the store has the answer that is computed. -/
theorem run_of_computed (haccepted : s.issuesOf q = []) (hrouting : s.routingOf q = .computed) :
    (s.run today q).run.value = s.computedAnswer today q := by
  rw [run_value, haccepted, if_pos List.isEmpty_nil, hrouting]

/-- Whatever a run answers, the request has no issues. -/
theorem accepted_of_run {a : Response} (h : (s.run today q).run.value = .ok a) : s.issuesOf q = [] := by
  rw [run_value] at h
  split at h
  · rename_i haccepted
    exact List.isEmpty_iff.1 haccepted
  · exact absurd h (by simp)

end Screener

/-! ## Symbols of rows -/

/-- A quote keeps the symbol of a row. -/
@[simp] theorem Quote.symbol_applyTo (q : Quote) (r : Row) : (q.applyTo r).symbol = r.symbol := by
  refine Row.symbol_foldl (fun r f => ?_) _ _
  cases f.2 <;> simp

/-- Bringing rows up to date keeps their symbols. -/
theorem symbols_enrich {ε : Type} (found : Except ε (Named Quote)) (rows : List Row) :
    (enrich found rows).map (·.symbol) = rows.map (·.symbol) := by
  cases found with
  | error e => rfl
  | ok quotes =>
    rw [enrich, List.map_map]
    refine List.map_congr_left fun r _ => ?_
    rw [Function.comp_apply]
    cases quotes.get? r.symbol <;> simp

theorem Screener.symbols_refreshed (s : Screener) (rows : List Row) :
    (s.refreshed rows).map (·.symbol) = rows.map (·.symbol) := by
  unfold refreshed
  split
  · rfl
  · exact symbols_enrich _ rows

/-! ## What a computed screen finds -/

/-- The snapshot that a computed screen has of a symbol; one that cannot be had is none. -/
def Sources.snapshotOf (sources : Sources) (symbol : String) : Option Snapshot :=
  match (sources.snapshot symbol).found with
  | .ok found => found
  | .error _ => none

namespace Outcome

/-- The symbol matched. -/
def isMatched (o : Outcome) : Bool := o.row?.isSome

/-- What matched was evaluated. -/
theorem not_isSkipped_of_isMatched {o : Outcome} (h : o.isMatched = true) : (!o.isSkipped) = true := by
  cases o with
  | matched row => rfl
  | rejected => rfl
  | skipped => exact absurd h (by decide)

end Outcome

namespace ComputedScreen

/-- The symbol is late: its snapshot is, or its bars are where they are needed. -/
def isLate (screen : ComputedScreen) (sources : Sources) (symbol : String) : Bool :=
  (sources.snapshot symbol).late ||
    (screen.analysis.needsSeries && (sources.bars symbol screen.start screen.finish).late)

/-- A symbol is evaluated with its bars where they are needed, and otherwise by its snapshot; it is late when an answer is that
it waits for. -/
theorem evaluate_value (screen : ComputedScreen) (sources : Sources) (symbol : String) :
    (screen.evaluate sources symbol).value =
      ⟨if screen.analysis.needsSeries then
          screen.ofSeries symbol (sources.snapshotOf symbol) (sources.bars symbol screen.start screen.finish).series
        else screen.ofSnapshot symbol (sources.snapshotOf symbol), screen.isLate sources symbol⟩ := by
  unfold evaluate isLate
  cases screen.analysis.needsSeries with
  | true => rfl
  | false =>
    rw [Bool.false_and, Bool.or_false]
    rfl

/-- The row of a symbol is a row of the symbol. -/
theorem symbol_of_evaluate {screen : ComputedScreen} {sources : Sources} {symbol : String} {r : Row}
    (h : (screen.evaluate sources symbol).value.outcome.row? = some r) : r.symbol = symbol := by
  rw [evaluate_value] at h
  cases hseries : screen.analysis.needsSeries with
  | true =>
    rw [hseries, if_pos rfl] at h
    unfold ofSeries at h
    split at h
    · exact absurd h (by simp [Outcome.row?])
    · split at h
      · exact absurd h (by simp [Outcome.row?])
      · split at h
        · obtain rfl := Option.some.inj h
          simp
        · exact absurd h (by simp [Outcome.row?])
  | false =>
    rw [hseries, if_neg Bool.false_ne_true] at h
    unfold ofSnapshot at h
    split at h
    · exact absurd h (by simp [Outcome.row?])
    · split at h
      · obtain rfl := Option.some.inj h
        simp
      · exact absurd h (by simp [Outcome.row?])

end ComputedScreen

namespace Screener

/-- The candidates whose outcomes are counted: all of them, or with a deadline those before the first that is late. -/
def reached (s : Screener) (screen : ComputedScreen) (candidates : List String) : List String :=
  if s.settings.deadline.isSome then candidates.takeWhile fun symbol => !screen.isLate s.sources symbol else candidates

theorem reached_prefix (s : Screener) (screen : ComputedScreen) (candidates : List String) :
    s.reached screen candidates <+: candidates := by
  unfold reached
  split
  · exact List.takeWhile_prefix _
  · exact List.prefix_rfl

/-- Without a deadline all candidates are reached. -/
theorem reached_of_no_deadline (s : Screener) (screen : ComputedScreen) (hdeadline : s.settings.deadline = none)
    (candidates : List String) : s.reached screen candidates = candidates := by
  rw [reached, hdeadline]
  rfl

/-- All candidates are reached unless there is a deadline and one of them is late. -/
theorem reached_eq_iff (s : Screener) (screen : ComputedScreen) (candidates : List String) :
    s.reached screen candidates = candidates ↔
      ¬(s.settings.deadline.isSome = true ∧ ∃ symbol ∈ candidates, screen.isLate s.sources symbol = true) := by
  unfold reached
  split
  · rename_i hdeadline
    rw [List.takeWhile_eq_self_iff]
    simp [hdeadline]
  · rename_i hdeadline
    simp [hdeadline]

/-- A computed screen sums up the outcomes of the candidates that are reached, and is partial when some are not. -/
theorem outcomes_value (s : Screener) (screen : ComputedScreen) (candidates : List String) :
    (s.outcomes screen candidates).value =
      .ofOutcomes ((s.reached screen candidates).map fun symbol => (screen.evaluate s.sources symbol).value.outcome)
        ((s.reached screen candidates).length < candidates.length) := by
  have hlate : (fun symbol => !(screen.evaluate s.sources symbol).value.late) = fun symbol => !screen.isLate s.sources symbol := by
    funext symbol
    rw [ComputedScreen.evaluate_value]
  simp only [outcomes, reached, ← hlate]
  by_cases hdeadline : s.settings.deadline.isSome = true
  · simp only [if_pos hdeadline, List.takeWhile_map, List.map_map, List.length_map]
    rfl
  · simp only [if_neg hdeadline, List.map_map, List.length_map]
    rfl

/-- The rows are those of the reached candidates that match. -/
theorem rows_reached (s : Screener) (screen : ComputedScreen) (candidates : List String) :
    (s.outcomes screen candidates).value.rows =
      (s.reached screen candidates).filterMap fun symbol => (screen.evaluate s.sources symbol).value.outcome.row? := by
  rw [outcomes_value, Matches.ofOutcomes, List.filterMap_map]
  rfl

/-- The symbols of the rows that a computed screen finds are those of the reached candidates that match. -/
theorem symbols_outcomes (s : Screener) (screen : ComputedScreen) (candidates : List String) :
    (s.outcomes screen candidates).value.rows.map (·.symbol) =
      (s.reached screen candidates).filter fun symbol => (screen.evaluate s.sources symbol).value.outcome.isMatched := by
  rw [rows_reached]
  induction s.reached screen candidates with
  | nil => rfl
  | cons symbol rest ih =>
    rw [List.filterMap_cons, List.filter_cons, Outcome.isMatched]
    cases hrow : (screen.evaluate s.sources symbol).value.outcome.row? with
    | none => simpa using ih
    | some row => simpa [ComputedScreen.symbol_of_evaluate hrow] using ih

/-- The rows that a computed screen finds are of its candidates, each at most once and in their order. -/
theorem symbols_outcomes_sublist (s : Screener) (screen : ComputedScreen) (candidates : List String) :
    ((s.outcomes screen candidates).value.rows.map (·.symbol)).Sublist candidates := by
  rw [symbols_outcomes]
  exact List.filter_sublist.trans (s.reached_prefix screen candidates).sublist

/-- Screeners that evaluate the candidates to the same find the same, by the same calls. -/
theorem outcomes_congr {s s' : Screener} (hsettings : s.settings = s'.settings) {screen : ComputedScreen}
    {candidates : List String}
    (h : ∀ symbol ∈ candidates, screen.evaluate s.sources symbol = screen.evaluate s'.sources symbol) :
    s.outcomes screen candidates = s'.outcomes screen candidates := by
  simp only [outcomes, hsettings, List.map_congr_left h]

/-- Without a deadline the rows are those of all candidates that match. -/
theorem rows_outcomes_eq (s : Screener) (screen : ComputedScreen) (hdeadline : s.settings.deadline = none)
    (candidates : List String) : (s.outcomes screen candidates).value.rows =
      candidates.filterMap fun symbol => (screen.evaluate s.sources symbol).value.outcome.row? := by
  rw [rows_reached, s.reached_of_no_deadline screen hdeadline]

/-- Without a deadline and without bars the rows of the candidates are found by their snapshots. -/
theorem rows_outcomes (s : Screener) {screen : ComputedScreen} (hseries : screen.analysis.needsSeries = false)
    (hdeadline : s.settings.deadline = none) (candidates : List String) :
    (s.outcomes screen candidates).value.rows =
      candidates.filterMap fun symbol => (screen.ofSnapshot symbol (s.sources.snapshotOf symbol)).row? := by
  rw [s.rows_outcomes_eq screen hdeadline]
  refine List.filterMap_congr fun symbol _ => ?_
  rw [ComputedScreen.evaluate_value, hseries]
  rfl

end Screener
end EquityScreen
