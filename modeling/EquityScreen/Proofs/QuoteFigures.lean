import EquityScreen.Proofs.Lemmas.Runs

/-!
# What quotes change of a page

A quote sets the figures that it has, one after another, so that a row then shows each of them, a missing one apart, and of
every other field what it showed before (`Quote.get?_applyTo`). A page is brought up to date row by row, each row with the quote
of its own symbol (`refreshed_enrich`). The quotes are asked for once, for the symbols of the page in order, and not at all for
an empty page; where they cannot be had every row stays as it is.
-/

namespace EquityScreen

namespace Quote

/-- The fields that a quote may have a figure of. -/
def fields : List String := ["close", "pct_chg", "amount", "volume"]

/-- The figure of a field. -/
def figure? (q : Quote) (field : String) : Option Float :=
  if field = "close" then q.close
  else if field = "pct_chg" then q.pctChg
  else if field = "amount" then q.amount
  else if field = "volume" then q.volume
  else none

/-- The figure of a field, if it is not missing. -/
def present? (q : Quote) (field : String) : Option Float := (q.figure? field).filter (!·.isNaN)

theorem figure?_eq_none {q : Quote} {field : String} (h : field ∉ fields) : q.figure? field = none := by
  simp only [fields, List.mem_cons, List.not_mem_nil, or_false, not_or] at h
  obtain ⟨hclose, hchange, hamount, hvolume⟩ := h
  rw [figure?, if_neg hclose, if_neg hchange, if_neg hamount, if_neg hvolume]

/-- The figures are listed with their fields. -/
theorem figures_eq (q : Quote) : q.figures = fields.map fun field => (field, q.figure? field) := rfl

/-- The row with a quote shows the figures that are there, and of any other field what it showed before. -/
theorem get?_applyTo (q : Quote) (r : Row) (field : String) :
    (q.applyTo r).get? field = ((q.present? field).map .number).or (r.get? field) := by
  have hfold : q.applyTo r = fields.foldl (fun r field => r.setSome field ((q.figure? field).map .number)) r := by
    rw [applyTo, figures_eq, List.foldl_map]
    congr 1
    funext r field
    cases q.figure? field <;> rfl
  have hpresent : ((q.figure? field).map Value.number).filter (!·.isMissing) = (q.present? field).map .number := by
    rw [present?, Option.filter_map]
    rfl
  rw [hfold, Row.get?_foldl_setSome, hpresent]
  split
  · rfl
  · rename_i hfield
    rw [present?, figure?_eq_none hfield]
    rfl

end Quote

/-- The quote that a look-up found for a symbol. -/
def quoteFor? {ε : Type} (found : Except ε (Named Quote)) (symbol : String) : Option Quote :=
  match found with
  | .ok quotes => quotes.get? symbol
  | .error _ => none

/-- What the quote of its symbol, if there is one, makes of a row. -/
structure Row.Refreshed (q? : Option Quote) (before after : Row) : Prop where
  symbol : after.symbol = before.symbol
  others : ∀ field, field ∉ Quote.fields → after.get? field = before.get? field
  figures : ∀ field ∈ Quote.fields, after.get? field =
    match q?.bind (·.present? field) with
    | some x => some (.number x)
    | none => before.get? field

namespace Row

/-- A row without a quote stays as it is. -/
theorem refreshed_self (r : Row) : r.Refreshed none r := ⟨rfl, fun _ _ => rfl, fun _ _ => rfl⟩

theorem refreshed_applyTo (r : Row) (q : Quote) : r.Refreshed (some q) (q.applyTo r) := by
  refine ⟨q.symbol_applyTo r, fun field hfield => ?_, fun field _ => ?_⟩
  · rw [q.get?_applyTo, Quote.present?, Quote.figure?_eq_none hfield]
    rfl
  · rw [q.get?_applyTo, Option.bind_some]
    cases q.present? field <;> rfl

end Row

/-- A page is brought up to date row by row, each with the quote of its symbol. -/
theorem refreshed_enrich {ε : Type} (found : Except ε (Named Quote)) (rows : List Row) :
    List.Forall₂ (fun before after => before.Refreshed (quoteFor? found before.symbol) after) rows (enrich found rows) := by
  cases found with
  | error e => exact List.forall₂_same.2 fun r _ => r.refreshed_self
  | ok quotes =>
    rw [enrich, List.forall₂_map_right_iff]
    refine List.forall₂_same.2 fun r _ => ?_
    rw [quoteFor?]
    cases quotes.get? r.symbol with
    | none => exact r.refreshed_self
    | some q => exact r.refreshed_applyTo q

/-- The quotes of a page are asked for once, and not at all where the page is empty. -/
theorem Screener.refresh_calls (s : Screener) (rows : List Row) :
    (s.refresh rows).run.calls = if rows = [] then [] else [.quotes (rows.map (·.symbol))] := by
  cases rows with
  | nil => rfl
  | cons r rest =>
    rw [if_neg (List.cons_ne_nil r rest)]
    rfl

/-- The rows of a page are brought up to date with the quotes of their symbols. -/
theorem Screener.refreshed_eq (s : Screener) (rows : List Row) :
    s.refreshed rows = enrich (s.sources.quotes (rows.map (·.symbol))) rows := by
  unfold refreshed
  split
  · rename_i hempty
    rw [List.isEmpty_iff.1 hempty]
    cases s.sources.quotes _ <;> rfl
  · rfl

/-- Bringing a page up to date asks for the quotes of its symbols in one call, and makes no call for an empty page. It always
answers, with the same rows in the same order: in each row only the closing price, the change, the amount and the volume may be
others than before, and each of them is the figure of the symbol's quote where the quotes could be had and hold that figure, and
what it was everywhere else. Where the quotes cannot be had, the page is as before. -/
theorem quotes_change_figures_only (s : Screener) (rows : List Row) :
    (s.refresh rows).run.calls = (if rows = [] then [] else [.quotes (rows.map (·.symbol))]) ∧
    ∃ shown, (s.refresh rows).run.value = .ok shown ∧
      List.Forall₂ (fun before after =>
        before.Refreshed (quoteFor? (s.sources.quotes (rows.map (·.symbol))) before.symbol) after) rows shown ∧
      ∀ e, s.sources.quotes (rows.map (·.symbol)) = .error e → shown = rows := by
  refine ⟨s.refresh_calls rows, s.refreshed rows, s.refresh_value rows, ?_, fun e he => ?_⟩
  · rw [s.refreshed_eq]
    exact refreshed_enrich _ rows
  · rw [s.refreshed_eq, he, enrich]

/-- A feed of quotes that knows one symbol, with a change that is missing and without a volume. -/
def oneQuote : Sources :=
  { ({} : Store).sources with
    quotes := fun _ => .ok (.ofList [("A", ⟨some 10.0, some notANumber, some 1000.0, none⟩)]) }

/-- A row with a closing price and a change. -/
def tradedRow (symbol : String) : Row := ⟨symbol, .ofList [("close", .number 9.0), ("pct_chg", .number 2.0)]⟩

/-- Of two rows the first shows the closing price and the amount of its quote and keeps its change, and the second, for which
there is no quote, keeps all. -/
theorem one_of_two_rows_quoted :
    ∃ first second, (({ sources := oneQuote } : Screener).refresh [tradedRow "A", tradedRow "B"]).run.value =
        .ok [first, second] ∧
      first.get? "close" = some (.number 10.0) ∧ first.get? "pct_chg" = some (.number 2.0) ∧
      first.get? "amount" = some (.number 1000.0) ∧ first.get? "volume" = none ∧
      second.get? "close" = some (.number 9.0) ∧ second.get? "pe" = none := by
  obtain ⟨-, shown, hvalue, hrows, -⟩ :=
    quotes_change_figures_only { sources := oneQuote } [tradedRow "A", tradedRow "B"]
  obtain ⟨first, rest, hfirst, hrest, rfl⟩ := List.forall₂_cons_left_iff.1 hrows
  obtain ⟨second, tail, hsecond, htail, rfl⟩ := List.forall₂_cons_left_iff.1 hrest
  obtain rfl := List.forall₂_nil_left_iff.1 htail
  refine ⟨first, second, hvalue, ?_, ?_, ?_, ?_, ?_, ?_⟩
  · exact hfirst.figures "close" (by decide)
  · exact hfirst.figures "pct_chg" (by decide)
  · exact hfirst.figures "amount" (by decide)
  · exact hfirst.figures "volume" (by decide)
  · exact hsecond.figures "close" (by decide)
  · exact hsecond.others "pe" (by decide)

end EquityScreen
