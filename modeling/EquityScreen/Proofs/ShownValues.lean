import EquityScreen.Proofs.Lemmas.Contexts

/-!
# What was read is what is shown

A symbol that matches with its bars is shown as the row of the context it was evaluated in. The evaluation reads a column of
the series even where it ends in a missing number, while the row keeps there what the snapshot has. So a row shows every value
that was read, and besides them the values that were concealed by such columns (`get?_row`): a row and the evaluation differ on
a field exactly where the snapshot has a value that is concealed (`shown_iff_not_concealed`).
-/

namespace EquityScreen

namespace Context

/-- The value that the snapshot has of a field where the series has a column for it and ends in a missing number. -/
def concealed? : Context → String → Option Value
  | series s snap, field =>
    if s.columns.contains field && (s.lastPresent? field).isNone then (snap.bind (·.get? field)).filter (!·.isMissing)
    else none
  | snapshot _, _ => none

/-- What is concealed is not read. -/
theorem present?_of_concealed? {ctx : Context} {field : String} {v : Value} (h : ctx.concealed? field = some v) :
    ctx.present? field = none := by
  cases ctx with
  | snapshot s => exact absurd h (by simp [concealed?])
  | series s snap =>
    rw [concealed?] at h
    split at h
    · rename_i hcolumn
      obtain ⟨hcontains, hnone⟩ := Bool.and_eq_true_iff.1 hcolumn
      rw [present?_series, if_pos hcontains]
      exact Option.isNone_iff_eq_none.1 hnone
    · exact absurd h (by simp)

/-- The row of a context shows what the evaluation reads there, and what the series conceals. -/
theorem get?_row (ctx : Context) (symbol : String) {field : String} (hsymbol : field ≠ "symbol")
    (hday : field ≠ "trade_date") :
    (ctx.row symbol).get? field = (ctx.present? field).or (ctx.concealed? field) := by
  cases ctx with
  | snapshot s =>
    rw [row, Row.get?_ofSnapshot, if_neg hsymbol]
    exact Option.or_none.symm
  | series s snap =>
    rw [row, Row.get?_withDay, if_neg hday, Row.get?_withLast, ← Series.lastPresent?, Row.get?_ofSnapshot, if_neg hsymbol,
      present?_series, concealed?]
    cases hcontains : s.columns.contains field with
    | false => simp [Series.lastPresent?_of_not_contains hcontains]
    | true => cases hlast : s.lastPresent? field <;> simp

/-- The row of a context and the evaluation there agree on a field when nothing is concealed of it. -/
theorem get?_row_eq_iff (ctx : Context) (symbol : String) {field : String} (hsymbol : field ≠ "symbol")
    (hday : field ≠ "trade_date") :
    (ctx.row symbol).get? field = ctx.present? field ↔ ctx.concealed? field = none := by
  rw [get?_row ctx symbol hsymbol hday]
  constructor
  · intro heq
    refine Option.eq_none_iff_forall_ne_some.2 fun v hv => ?_
    rw [present?_of_concealed? hv, hv] at heq
    exact absurd heq (by simp)
  · intro hnone
    rw [hnone, Option.or_none]

end Context

/-- A symbol that matches with its bars was evaluated in the context of its bars and its snapshot, and matched there. Of every
field, the symbol and the day apart, its row shows the value that was read, and where none was read the value of the snapshot
that the series conceals; so the row and the evaluation agree exactly where nothing is concealed. The day is no field of the
registry. -/
theorem shown_iff_not_concealed {screen : ComputedScreen} {sources : Sources} {symbol : String} {row : Row}
    (hseries : screen.analysis.needsSeries = true)
    (h : (screen.evaluate sources symbol).value.outcome = .matched row) :
    (∃ (bars s : Series), (sources.bars symbol screen.start screen.finish).series = some bars ∧
      bars.withChange.compute screen.analysis.specs = .ok s ∧
      let ctx := Context.series s (sources.snapshotOf symbol)
      ctx.satisfies screen.conditions = true ∧ ∀ field, field ≠ "symbol" → field ≠ "trade_date" →
        row.get? field = (ctx.present? field).or (ctx.concealed? field) ∧
          (row.get? field = ctx.present? field ↔ ctx.concealed? field = none)) ∧
      Registry.builtin.resolve? "trade_date" = none := by
  refine ⟨?_, rfl⟩
  obtain ⟨ctx, hctx, hsatisfies, rfl⟩ := ComputedScreen.exists_context_of_matched h
  obtain ⟨bars, s, hbars, hcompute, rfl⟩ := ComputedScreen.context?_of_needsSeries hseries hctx
  exact ⟨bars, s, hbars, hcompute, hsatisfies, fun field hsymbol hday =>
    ⟨Context.get?_row _ symbol hsymbol hday, Context.get?_row_eq_iff _ symbol hsymbol hday⟩⟩

/-- A store of one symbol: what is stored of it has a change of its price, and there is a bar of one day, so that the change on
that day is not known. -/
def onFirstDay : Store :=
  let r : Record := ⟨"A", fun _ => none, fun c => if c = .pctChg then some 5.0 else none⟩
  { snapshots := .ofList [("A", r.stored)]
    bars := .ofList [("A", .ofList [("2024-01-02", ⟨"A", "2024-01-02", 10.0, 10.0, 10.0, 10.0, 1.0, none⟩)])] }

/-- The symbols with a mean closing price, on the day of the bar. -/
def priced : ComputedScreen :=
  ({ sources := onFirstDay.sources } : Screener).computedScreen ⟨2024, 1, 2⟩
    { market := "all", conditions := .leaf (.withLiteral "ma5" .gt (.number 0.0)) }

theorem exists_matched_priced : ∃ row, (priced.evaluate onFirstDay.sources "A").value.outcome = .matched row := by
  have hfound : (priced.evaluate onFirstDay.sources "A").value.outcome.row?.isSome = true := by decide +kernel
  cases houtcome : (priced.evaluate onFirstDay.sources "A").value.outcome with
  | matched row => exact ⟨row, rfl⟩
  | rejected => exact absurd (houtcome ▸ hfound) (by decide)
  | skipped => exact absurd (houtcome ▸ hfound) (by decide)

/-- Nothing is stored of the mean price of the symbol, so it is shown as it was read. -/
theorem mean_shown_as_read :
    ∃ (row : Row) (bars s : Series), (priced.evaluate onFirstDay.sources "A").value.outcome = .matched row ∧
      (onFirstDay.sources.bars "A" priced.start priced.finish).series = some bars ∧
      bars.withChange.compute priced.analysis.specs = .ok s ∧
      row.get? "ma5" = (Context.series s (onFirstDay.sources.snapshotOf "A")).present? "ma5" := by
  obtain ⟨row, hrow⟩ := exists_matched_priced
  obtain ⟨⟨bars, s, hbars, hcompute, -, hshown⟩, -⟩ := shown_iff_not_concealed (show _ = true from rfl) hrow
  have hstored : (onFirstDay.sources.snapshotOf "A").bind (·.get? "ma5") = none := rfl
  have hnone : (Context.series s (onFirstDay.sources.snapshotOf "A")).concealed? "ma5" = none := by
    rw [Context.concealed?, hstored]
    exact ite_self _
  exact ⟨row, bars, s, hrow, hbars, hcompute, (hshown "ma5" (by decide) (by decide)).2.2 hnone⟩

/-- The change that is stored of the symbol is shown, although the evaluation found none. -/
theorem unread_change_is_shown :
    ∃ (row : Row) (bars s : Series), (priced.evaluate onFirstDay.sources "A").value.outcome = .matched row ∧
      (onFirstDay.sources.bars "A" priced.start priced.finish).series = some bars ∧
      bars.withChange.compute priced.analysis.specs = .ok s ∧
      row.get? "pct_chg" = some (.number 5.0) ∧
      (Context.series s (onFirstDay.sources.snapshotOf "A")).present? "pct_chg" = none ∧
      (Registry.builtin.resolve? "pct_chg").isSome = true := by
  obtain ⟨row, hrow⟩ := exists_matched_priced
  have hshown : (priced.evaluate onFirstDay.sources "A").value.outcome.row?.bind (·.get? "pct_chg") =
      some (.number 5.0) := by decide +kernel
  have hread : ((priced.context? onFirstDay.sources "A").bind (·.present? "pct_chg")) = none := by decide +kernel
  obtain ⟨ctx, hctx, -, -⟩ := ComputedScreen.exists_context_of_matched hrow
  obtain ⟨bars, s, hbars, hcompute, rfl⟩ := ComputedScreen.context?_of_needsSeries (show _ = true from rfl) hctx
  rw [hrow] at hshown
  rw [hctx] at hread
  exact ⟨row, bars, s, hrow, hbars, hcompute, hshown, hread, rfl⟩

end EquityScreen
