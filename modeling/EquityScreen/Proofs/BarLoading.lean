import EquityScreen.Proofs.CrossingOperands
import EquityScreen.Proofs.Lemmas.Bars

/-!
# Series are loaded from the bars written last

The store picks bars by the texts of their days and a series orders them by the days themselves. Of days in years of four
digits both orders are one, and no two days are written alike. So the series of a symbol between two such days has exactly the
days between them on which a bar of the symbol has been written, in increasing order, and on each day every column has the
number of the bar that was written last for it (`series_loaded_exactly`). This holds after any writes, whatever they replaced
and in whatever order they came.
-/

namespace EquityScreen

/-- A day of the calendar in a year of four digits. -/
structure Date.IsFourDigit (d : Date) : Prop where
  isDay : d.IsDay
  year_nonneg : 0 ≤ d.year
  year_le : d.year ≤ 9999

namespace Date

variable {a b d start finish : Date}

theorem IsFourDigit.isPlain (h : d.IsFourDigit) : d.IsPlain := h.isDay.isPlain h.year_nonneg h.year_le

/-- A written day reads as itself. -/
theorem IsFourDigit.readStored?_toText (h : d.IsFourDigit) : readStored? d.toText = some d :=
  (Date.readStored?_toText h.isPlain).trans h.isDay

/-- No two days are written alike. -/
theorem IsFourDigit.toText_inj (ha : a.IsFourDigit) (hb : b.IsFourDigit) (h : a.toText = b.toText) : a = b := by
  refine Option.some.inj ?_
  rw [← ha.readStored?_toText, h, hb.readStored?_toText]

/-- A day of the calendar between two days of four-digit years is one of such a year. -/
theorem IsFourDigit.of_between (hstart : start.IsFourDigit) (hfinish : finish.IsFourDigit) (hd : d.IsDay)
    (hle : start.le d = true) (hge : d.le finish = true) : d.IsFourDigit := by
  have := hstart.year_nonneg
  have := hfinish.year_le
  simp only [le, Bool.or_eq_true, Bool.and_eq_true, decide_eq_true_eq, beq_iff_eq] at hle hge
  exact ⟨hd, by omega, by omega⟩

end Date

/-! ## Bars as they are written and as they are read -/

/-- The number that is shown where one was written: the number, and of the two zeros the one without a sign. Where none was
written, the mark of a missing number is. -/
def ShownAs : Option Float → Float → Prop
  | some x, y => y = x ∨ x = -0.0 ∧ y = 0.0
  | none, y => y.isNaN = true

/-- A number that is not missing is shown as the table keeps it. -/
theorem shownAs_add_zero {x : Float} (h : x.isNaN = false) : ShownAs (some x) (x + 0.0) := by
  by_cases hzero : x = -0.0
  · subst hzero
    exact .inr ⟨rfl, by decide⟩
  · exact .inl (add_zero_of_isTame ⟨h, hzero⟩)

theorem storedNumber_eq {x : Float} (h : x.isNaN = false) : Record.storedNumber x = some (x + 0.0) := by
  rw [Record.storedNumber, h]
  rfl

/-- The columns of a bar with its numbers. -/
def Bar.figures (b : Bar) : List (String × Float) :=
  [("open", b.openPrice), ("high", b.high), ("low", b.low), ("close", b.close), ("volume", b.volume),
    ("amount", b.amount.getD notANumber)]

namespace DailyBar

variable {b : DailyBar}

/-- The columns of a bar with the numbers it is written with. -/
def figures (b : DailyBar) : List (String × Option Float) :=
  [("open", some b.openPrice), ("high", some b.high), ("low", some b.low), ("close", some b.close),
    ("volume", some b.volume), ("amount", b.amount)]

/-- A bar in the format of records: its day is written with the year in four digits, and of its numbers only the amount may be
missing. -/
structure WellFormed (b : DailyBar) : Prop where
  day : ∃ d : Date, d.IsFourDigit ∧ b.day = d.toText
  numbers : ∀ x ∈ [b.openPrice, b.high, b.low, b.close, b.volume], x.isNaN = false
  amount : ∀ x, b.amount = some x → x.isNaN = false

/-- A bar that is written reads as another: on its day, with its numbers. -/
structure ReadsAs (b : DailyBar) (bar : Bar) : Prop where
  fourDigit : bar.date.IsFourDigit
  day : b.day = bar.date.toText
  figures : ∀ e ∈ b.figures, ∃ y, (e.1, y) ∈ bar.figures ∧ ShownAs e.2 y

/-- The row of a bar in the format of records. -/
theorem WellFormed.stored?_eq (h : b.WellFormed) : b.stored? = some ⟨b.symbol, b.day, b.openPrice + 0.0, b.high + 0.0,
    b.low + 0.0, b.close + 0.0, b.volume + 0.0, b.amount.map (· + 0.0)⟩ := by
  have hamount : b.amount.bind Record.storedNumber = b.amount.map (· + 0.0) := by
    cases hx : b.amount with
    | none => rfl
    | some x => exact storedNumber_eq (h.amount x hx)
  obtain ⟨hopen, hhigh, hlow, hclose, hvolume⟩ := by simpa only [List.forall_mem_cons] using h.numbers
  rw [stored?, storedNumber_eq hopen, storedNumber_eq hhigh, storedNumber_eq hlow, storedNumber_eq hclose,
    storedNumber_eq hvolume.1, hamount]
  rfl

/-- The row of a bar in the format of records reads as the bar. -/
theorem WellFormed.exists_bar (h : b.WellFormed) {c : DailyBar} (hc : b.stored? = some c) :
    ∃ bar, c.bar? = some bar ∧ b.ReadsAs bar := by
  obtain ⟨d, hd, hday⟩ := h.day
  obtain rfl := Option.some.inj (h.stored?_eq.symm.trans hc)
  refine ⟨⟨d, b.openPrice + 0.0, b.high + 0.0, b.low + 0.0, b.close + 0.0, b.volume + 0.0, b.amount.map (· + 0.0)⟩, ?_, hd,
    hday, ?_⟩
  · rw [bar?, hday, hd.readStored?_toText]
    rfl
  · have hamount : ShownAs b.amount ((b.amount.map (· + 0.0)).getD notANumber) := by
      cases hx : b.amount with
      | none => exact (by decide : notANumber.isNaN = true)
      | some x => exact shownAs_add_zero (h.amount x hx)
    obtain ⟨hopen, hhigh, hlow, hclose, hvolume⟩ := by simpa only [List.forall_mem_cons] using h.numbers
    simp only [figures, List.forall_mem_cons]
    exact ⟨⟨_, by simp [Bar.figures], shownAs_add_zero hopen⟩, ⟨_, by simp [Bar.figures], shownAs_add_zero hhigh⟩,
      ⟨_, by simp [Bar.figures], shownAs_add_zero hlow⟩, ⟨_, by simp [Bar.figures], shownAs_add_zero hclose⟩,
      ⟨_, by simp [Bar.figures], shownAs_add_zero hvolume.1⟩, ⟨_, by simp [Bar.figures], hamount⟩, List.forall_mem_nil _⟩

end DailyBar

/-! ## Series of bars in order -/

namespace Series

/-- The number of a column on the day at a position. -/
def at? (s : Series) (name : String) (i : Nat) : Option Float := (s.column? name).bind (·[i]?)

variable {bars : List Bar} (h : bars.Pairwise fun a b => a.date.le b.date = true)
include h

/-- The days of bars that are in order of time are the days of the series. -/
theorem dates_ofBars : (ofBars bars).dates = bars.map (·.date) := by
  rw [ofBars, List.mergeSort_of_pairwise h]

/-- The numbers of a bar among bars that are in order of time are the ones at its position in the series. -/
theorem at?_ofBars {i : Nat} {bar : Bar} (hi : bars[i]? = some bar) {name : String} {y : Float}
    (hy : (name, y) ∈ bar.figures) : (ofBars bars).at? name i = some y := by
  simp only [Bar.figures, List.mem_cons, List.not_mem_nil, or_false, Prod.mk.injEq] at hy
  rw [ofBars, List.mergeSort_of_pairwise h]
  rcases hy with ⟨rfl, rfl⟩ | ⟨rfl, rfl⟩ | ⟨rfl, rfl⟩ | ⟨rfl, rfl⟩ | ⟨rfl, rfl⟩ | ⟨rfl, rfl⟩ <;>
    simp [at?, column?, Named.ofList, hi]

end Series

/-! ## Bars that have been written -/

/-- The day is one of the calendar, from the first day to the last, on which a bar of the symbol has been written. -/
def Date.HasBar (d : Date) (written : List DailyBar) (symbol : String) (start finish : Date) : Prop :=
  d.IsDay ∧ start.le d = true ∧ d.le finish = true ∧ ∃ b ∈ written, b.symbol = symbol ∧ b.day = d.toText

/-- The series has exactly the days from the first to the last on which a bar of the symbol has been written, and for each of
them the numbers of the bar that was written last. -/
structure Series.LoadedFrom (series : Series) (written : List DailyBar) (symbol : String) (start finish : Date) : Prop where
  ascending : series.dates.Pairwise fun a b => a.le b = true ∧ a ≠ b
  mem_dates_iff : ∀ d, d ∈ series.dates ↔ d.HasBar written symbol start finish
  /-- The columns are those of a bar. -/
  columns : ∀ name, series.columns.contains name = true ↔ name ∈ ["open", "high", "low", "close", "volume", "amount"]
  /-- Each column has a number for each day and no more. -/
  even : series.Even
  rows : ∀ i d, series.dates[i]? = some d → ∃ b, DailyBar.lastOf written symbol d.toText = some b ∧
    ∀ e ∈ b.figures, ∃ y, series.at? e.1 i = some y ∧ ShownAs e.2 y

namespace Store

section Loading

variable {ws : List Write} {s : Store} (hwrites : ws.foldlM write {} = .ok s)
  (hwritten : ∀ b ∈ ws.flatMap Write.written, b.WellFormed) {start finish : Date} (hstart : start.IsFourDigit)
  (hfinish : finish.IsFourDigit) {symbol : String}
include hwrites hwritten hstart hfinish

/-- A bar that is read is the last one written for its day. -/
theorem exists_written_of_mem {e : String × Bar} (he : e ∈ s.readBars symbol start finish) :
    e.1 = e.2.date.toText ∧ start.le e.2.date = true ∧ e.2.date.le finish = true ∧
      ∃ b, DailyBar.lastOf (ws.flatMap Write.written) symbol e.1 = some b ∧ b.ReadsAs e.2 := by
  obtain ⟨c, hc, he⟩ := List.mem_filterMap.1 he
  obtain ⟨hc, hbetween⟩ := List.mem_filter.1 hc
  obtain ⟨hge, hle⟩ := of_decide_eq_true hbetween
  obtain ⟨bars, day, hbars, hday⟩ := mem_barsOf.1 hc
  have hrow : s.row? symbol day = some c := by rw [row?, hbars, Option.bind_some, hday]
  rw [row?_of_writes hwrites] at hrow
  cases hlast : DailyBar.lastOf (ws.flatMap Write.written) symbol day with
  | none =>
    rw [hlast] at hrow
    exact absurd hrow.symm (Option.some_ne_none c)
  | some b =>
    rw [hlast] at hrow
    obtain ⟨hmem, -, rfl⟩ := DailyBar.lastOf_eq_some hlast
    obtain ⟨bar, hbar, hreads⟩ := (hwritten b hmem).exists_bar hrow
    rw [hbar, Option.map_some, (DailyBar.keys_stored? hrow).2] at he
    obtain rfl := Option.some.inj he
    rw [(DailyBar.keys_stored? hrow).2, hreads.day] at hge hle
    have hplain := hreads.fourDigit.isPlain
    exact ⟨hreads.day, (Date.toText_le_iff hstart.isPlain hplain).1 hge, (Date.toText_le_iff hplain hfinish.isPlain).1 hle, b,
      hlast, hreads⟩

/-- The day of a bar that is read is one on which a bar has been written. -/
theorem hasBar_of_mem {e : String × Bar} (he : e ∈ s.readBars symbol start finish) :
    e.2.date.HasBar (ws.flatMap Write.written) symbol start finish := by
  obtain ⟨-, hge, hle, b, hlast, hreads⟩ := exists_written_of_mem hwrites hwritten hstart hfinish he
  obtain ⟨hmem, hsymbol, -⟩ := DailyBar.lastOf_eq_some hlast
  exact ⟨hreads.fourDigit.isDay, hge, hle, b, hmem, hsymbol, hreads.day⟩

/-- On a day from the first to the last on which a bar has been written, a bar is read. -/
theorem exists_mem_of_hasBar {d : Date} (hd : d.HasBar (ws.flatMap Write.written) symbol start finish) :
    ∃ e ∈ s.readBars symbol start finish, e.2.date = d := by
  obtain ⟨hday, hge, hle, hbar⟩ := hd
  have hfour := hstart.of_between hfinish hday hge hle
  obtain ⟨b, hlast⟩ := Option.isSome_iff_exists.1 (DailyBar.isSome_lastOf_iff.2 hbar)
  obtain ⟨hmem, -, hb⟩ := DailyBar.lastOf_eq_some hlast
  obtain ⟨c, hc⟩ : ∃ c, b.stored? = some c := ⟨_, (hwritten b hmem).stored?_eq⟩
  obtain ⟨bar, hbar, hreads⟩ := (hwritten b hmem).exists_bar hc
  have hrow : s.row? symbol d.toText = some c := by
    rw [row?_of_writes hwrites, hlast]
    exact hc
  obtain ⟨bars, hbars, hget⟩ := Option.bind_eq_some_iff.1 hrow
  have hcday : c.day = d.toText := (DailyBar.keys_stored? hc).2.trans hb
  refine ⟨(c.day, bar), List.mem_filterMap.2 ⟨c, List.mem_filter.2 ⟨mem_barsOf.2 ⟨bars, _, hbars, hget⟩, ?_⟩, ?_⟩, ?_⟩
  · rw [hcday]
    exact decide_eq_true ⟨(Date.toText_le_iff hstart.isPlain hfour.isPlain).2 hge,
      (Date.toText_le_iff hfour.isPlain hfinish.isPlain).2 hle⟩
  · rw [hbar]
    rfl
  · exact hreads.fourDigit.toText_inj hfour (hreads.day.symm.trans hb)

/-- The bars that are read come in increasing order of their days, no day twice. -/
theorem ascending_readBars (symbol : String) :
    (s.readBars symbol start finish).Pairwise fun a b => a.2.date.le b.2.date = true ∧ a.2.date ≠ b.2.date := by
  refine (sorted_readBars (barsKept_of_writes hwrites)).imp_of_mem fun {a b} ha hb hlt => ?_
  obtain ⟨hatext, -, -, _, -, hareads⟩ := exists_written_of_mem hwrites hwritten hstart hfinish ha
  obtain ⟨hbtext, -, -, _, -, hbreads⟩ := exists_written_of_mem hwrites hwritten hstart hfinish hb
  rw [hatext, hbtext] at hlt
  refine ⟨(Date.toText_le_iff hareads.fourDigit.isPlain hbreads.fourDigit.isPlain).1 (le_of_lt hlt), fun heq => ?_⟩
  rw [heq] at hlt
  exact String.lt_irrefl _ hlt

/-- The series of the bars that are read has the days and the numbers of what was written last. -/
theorem loadedFrom_readBars (symbol : String) : (Series.ofBars ((s.readBars symbol start finish).map (·.2))).LoadedFrom
    (ws.flatMap Write.written) symbol start finish := by
  have hascending := ascending_readBars hwrites hwritten hstart hfinish symbol
  have hsorted : ((s.readBars symbol start finish).map (·.2)).Pairwise fun a b => a.date.le b.date = true :=
    List.pairwise_map.2 (hascending.imp And.left)
  have hdates := Series.dates_ofBars hsorted
  rw [List.map_map] at hdates
  refine ⟨?_, fun d => ?_, Series.contains_ofBars _, Series.even_ofBars _, fun i d hi => ?_⟩
  · rw [hdates]
    exact List.pairwise_map.2 hascending
  · rw [hdates, List.mem_map]
    constructor
    · rintro ⟨e, he, rfl⟩
      exact hasBar_of_mem hwrites hwritten hstart hfinish he
    · exact exists_mem_of_hasBar hwrites hwritten hstart hfinish
  · rw [hdates, List.getElem?_map] at hi
    obtain ⟨e, he, rfl⟩ := Option.map_eq_some_iff.1 hi
    obtain ⟨htext, -, -, b, hlast, hreads⟩ :=
      exists_written_of_mem hwrites hwritten hstart hfinish (List.mem_of_getElem? he)
    refine ⟨b, htext ▸ hlast, fun figure hfigure => ?_⟩
    obtain ⟨y, hy, hshown⟩ := hreads.figures figure hfigure
    exact ⟨y, Series.at?_ofBars hsorted (by rw [List.getElem?_map, he]; rfl) hy, hshown⟩

end Loading

/-- Bars are loaded exactly. After any writes of bars in the format of records, a symbol has no series between two days of
four-digit years if and only if no bar of it has been written on a day between them. Otherwise its series has exactly the days
with a bar, in increasing order, and on each day the numbers of the bar that was written last for it. -/
theorem series_loaded_exactly {ws : List Write} {s : Store} (hwrites : ws.foldlM write {} = .ok s)
    (hwritten : ∀ b ∈ ws.flatMap Write.written, b.WellFormed) {start finish : Date} (hstart : start.IsFourDigit)
    (hfinish : finish.IsFourDigit) (symbol : String) :
    (s.series? symbol start finish = none ↔ ∀ d, ¬Date.HasBar d (ws.flatMap Write.written) symbol start finish) ∧
    ∀ series, s.series? symbol start finish = some series →
      series.LoadedFrom (ws.flatMap Write.written) symbol start finish := by
  have hloaded := loadedFrom_readBars hwrites hwritten hstart hfinish symbol
  rw [series?_eq (isOpen_of_writes rfl hwrites)]
  cases hread : s.readBars symbol start finish with
  | nil =>
    refine ⟨iff_of_true rfl fun d hd => ?_, nofun⟩
    obtain ⟨e, he, -⟩ := exists_mem_of_hasBar hwrites hwritten hstart hfinish hd
    rw [hread] at he
    exact List.not_mem_nil he
  | cons e rest =>
    rw [hread] at hloaded
    constructor
    · have he : e ∈ s.readBars symbol start finish := by
        rw [hread]
        exact List.mem_cons_self
      exact iff_of_false nofun fun hnone => hnone e.2.date (hasBar_of_mem hwrites hwritten hstart hfinish he)
    · intro series hseries
      obtain rfl := Option.some.inj hseries
      exact hloaded

/-- A day of trading with its amount. -/
def wholeDay : DailyBar := ⟨"000001", "2024-01-02", 9.0, 10.5, 8.0, 10.0, 1000.0, some 9800.0⟩

/-- Two batches: two days of a symbol, the later one first, and then a day of another symbol and the earlier day once more. -/
def twoBatches : List Write :=
  [.bars [⟨"000001", "2024-01-04", 11.0, 12.0, 10.0, 11.5, 900.0, none⟩, ⟨"000001", "2024-01-02", 9.0, 10.0, 8.0, 9.5, 800.0, none⟩],
    .bars [⟨"000002", "2024-01-03", 70.0, 71.0, 69.0, 70.5, 300.0, none⟩, wholeDay]]

/-- The earlier day is loaded as the second batch has it. -/
theorem earlier_day_loaded_anew :
    ∃ s series, twoBatches.foldlM write {} = .ok s ∧ (∀ b ∈ twoBatches.flatMap Write.written, b.WellFormed) ∧
      Date.IsFourDigit ⟨2024, 1, 2⟩ ∧ Date.IsFourDigit ⟨2024, 1, 4⟩ ∧
      s.series? "000001" ⟨2024, 1, 2⟩ ⟨2024, 1, 4⟩ = some series ∧
      series.LoadedFrom (twoBatches.flatMap Write.written) "000001" ⟨2024, 1, 2⟩ ⟨2024, 1, 4⟩ ∧
      ∃ i, series.at? "close" i = some 10.0 ∧ series.at? "amount" i = some 9800.0 := by
  obtain ⟨s, hwrites⟩ : ∃ s, twoBatches.foldlM write {} = .ok s := ⟨_, rfl⟩
  have hsecond : Date.IsFourDigit ⟨2024, 1, 2⟩ := ⟨rfl, by decide, by decide⟩
  have hthird : Date.IsFourDigit ⟨2024, 1, 3⟩ := ⟨rfl, by decide, by decide⟩
  have hfourth : Date.IsFourDigit ⟨2024, 1, 4⟩ := ⟨rfl, by decide, by decide⟩
  have hwritten : ∀ b ∈ twoBatches.flatMap Write.written, b.WellFormed := by
    simp only [twoBatches, List.flatMap_cons, List.flatMap_nil, Write.written, List.cons_append, List.nil_append,
      List.forall_mem_cons]
    exact ⟨⟨⟨_, hfourth, rfl⟩, by decide, nofun⟩, ⟨⟨_, hsecond, rfl⟩, by decide, nofun⟩, ⟨⟨_, hthird, rfl⟩, by decide, nofun⟩,
      ⟨⟨_, hsecond, rfl⟩, by decide, fun x hx => Option.some.inj hx ▸ by decide⟩, List.forall_mem_nil _⟩
  have hbar : Date.HasBar ⟨2024, 1, 2⟩ (twoBatches.flatMap Write.written) "000001" ⟨2024, 1, 2⟩ ⟨2024, 1, 4⟩ :=
    ⟨rfl, rfl, rfl, _, .tail _ (.head _), rfl, rfl⟩
  obtain ⟨hnone, hsome⟩ := series_loaded_exactly hwrites hwritten hsecond hfourth "000001"
  cases hseries : s.series? "000001" ⟨2024, 1, 2⟩ ⟨2024, 1, 4⟩ with
  | none => exact absurd hbar (hnone.1 hseries _)
  | some series =>
    have hloaded := hsome series hseries
    refine ⟨s, series, hwrites, hwritten, hsecond, hfourth, hseries, hloaded, ?_⟩
    obtain ⟨i, hi, hday⟩ := List.getElem_of_mem ((hloaded.mem_dates_iff _).2 hbar)
    obtain ⟨b, hb, hfigures⟩ := hloaded.rows i _ ((List.getElem?_eq_getElem hi).trans (congrArg some hday))
    obtain rfl : wholeDay = b := Option.some.inj ((rfl : some wholeDay = _).trans hb)
    have hshown : ∀ name x, (name, some x) ∈ wholeDay.figures → x ≠ -0.0 → series.at? name i = some x := by
      intro name x hx hzero
      obtain ⟨y, hy, rfl | ⟨hminus, -⟩⟩ := hfigures _ hx
      · exact hy
      · exact absurd hminus hzero
    exact ⟨i, hshown "close" 10.0 (by simp [wholeDay, DailyBar.figures]) (by decide),
      hshown "amount" 9800.0 (by simp [wholeDay, DailyBar.figures]) (by decide)⟩

end Store
end EquityScreen
