import EquityScreen.Proofs.Lemmas.Days
import EquityScreen.Proofs.Lemmas.Records

/-!
# Bars between two days

The store compares the days of bars as texts: it is asked for texts between two texts. Of texts that are all written alike
these are the days between the two days (`exists_barOn_of_mem`), where the first day is so many days before the last. So the
series of a symbol is determined by the bars of the days between the two (`SameBars.series?_eq`), and no bar of any other day,
or of another symbol, is seen in it. What a write does to the table of bars is said once (`bars_of_write`): every bar is kept
under its own day (`barsKept_of_writes`), and the row of a symbol and a day is the bar written last (`row?_of_writes`).
-/

namespace EquityScreen
namespace Store

/-! ## Bars by their days -/

/-- The bar of a symbol on a day. -/
def barOn? (s : Store) (symbol : String) (d : Date) : Option DailyBar := (s.bars.get? symbol).bind (·.get? d.toText)

/-- Every bar is kept under its own day. -/
def BarsKept (s : Store) : Prop := ∀ symbol bars, s.bars.get? symbol = some bars → ∀ day b, bars.get? day = some b → b.day = day

/-- The days of all bars of the symbol are written alike, with years of four digits. -/
def DaysWritten (s : Store) (symbol : String) : Prop :=
  ∀ bars, s.bars.get? symbol = some bars → ∀ day b, bars.get? day = some b → Date.IsWritten day

/-- The store is kept as writes keep it, and the days of the symbol's bars are written alike. -/
structure Sound (s : Store) (symbol : String) : Prop where
  kept : s.Kept
  barsKept : s.BarsKept
  daysWritten : s.DaysWritten symbol

/-- A bar is put under its own day. -/
theorem barsKept_putBar {s s' : Store} {b : DailyBar} (hs : s.BarsKept) (h : s.putBar b = .ok s') : s'.BarsKept := by
  intro symbol bars hbars day b' hb
  have hrow : s'.row? symbol day = some b' := by rw [row?, hbars, Option.bind_some, hb]
  rw [row?_putBar h] at hrow
  split at hrow
  · rename_i hkey
    rw [hkey.2, (DailyBar.keys_stored? hrow).2]
  · obtain ⟨before, hbefore, hday⟩ := Option.bind_eq_some_iff.1 hrow
    exact hs symbol before hbefore day b' hday

/-- The bars of a write. -/
def Write.written : Write → List DailyBar
  | .bars bs => bs
  | .snapshot _ => []
  | .quote _ => []

/-- A write is to an open store, which stays open, and puts the bars of the write into the table one after another. -/
theorem bars_of_write {s s' : Store} {w : Write} (h : s.write w = .ok s') :
    s.isClosed = false ∧ s'.isClosed = false ∧ ∃ s₁, w.written.foldlM putBar s = .ok s₁ ∧ s'.bars = s₁.bars := by
  cases w with
  | snapshot r =>
    obtain ⟨hopen, rfl⟩ := answer_eq_ok h
    exact ⟨hopen, hopen, s, rfl, rfl⟩
  | quote q =>
    obtain ⟨hopen, rfl⟩ := answer_eq_ok h
    exact ⟨hopen, hopen, s, rfl, rfl⟩
  | bars bs =>
    obtain ⟨hopen, hall⟩ := importBars_eq_ok h
    refine ⟨hopen, ?_, s', hall, rfl⟩
    rw [eq_of_foldlM_putBar hall]
    exact hopen

/-- A write keeps every bar under its own day. -/
theorem barsKept_write {s s' : Store} {w : Write} (hs : s.BarsKept) (h : s.write w = .ok s') : s'.BarsKept := by
  obtain ⟨-, -, s₁, hall, hbars⟩ := bars_of_write h
  have hkept : s₁.BarsKept := foldlM_inv barsKept_putBar hs hall
  rwa [BarsKept, hbars]

/-- Every store that writes make of the empty one keeps every bar under its own day. -/
theorem barsKept_of_writes {ws : List Write} {s : Store} (h : ws.foldlM write {} = .ok s) : s.BarsKept := by
  have hempty : ({} : Store).BarsKept := fun _ _ hbars => nomatch hbars
  exact foldlM_inv barsKept_write hempty h

/-- After a write the row of a symbol and a day is the last bar of the write with this symbol and day, if there is one. -/
theorem row?_write {s s' : Store} {w : Write} (h : s.write w = .ok s') (symbol day : String) : s'.row? symbol day =
    match DailyBar.lastOf w.written symbol day with
    | some b => b.stored?
    | none => s.row? symbol day := by
  obtain ⟨-, -, s₁, hall, hbars⟩ := bars_of_write h
  rw [row?, hbars]
  exact row?_foldlM_putBar hall symbol day

/-- After any writes the row of a symbol and a day is the last bar written with this symbol and day, if there is one. -/
theorem row?_of_writes {ws : List Write} {s s' : Store} (h : ws.foldlM write s = .ok s') (symbol day : String) :
    s'.row? symbol day =
      match DailyBar.lastOf (ws.flatMap Write.written) symbol day with
      | some b => b.stored?
      | none => s.row? symbol day := by
  induction ws generalizing s with
  | nil =>
    obtain rfl := Except.ok.inj h
    rfl
  | cons w rest ih =>
    rw [List.foldlM_cons] at h
    obtain ⟨s₁, hw, hrest⟩ := bind_eq_ok h
    rw [ih hrest, List.flatMap_cons, DailyBar.lastOf_append, row?_write hw]
    cases DailyBar.lastOf (rest.flatMap Write.written) symbol day <;> rfl

/-- Every store that writes make of an open one is open. -/
theorem isOpen_of_writes {ws : List Write} {s s' : Store} (hopen : s.isClosed = false) (h : ws.foldlM write s = .ok s') :
    s'.isClosed = false :=
  foldlM_inv (P := fun s => s.isClosed = false) (fun _ hw => (bars_of_write hw).2.1) hopen h

/-- All bars of a symbol. -/
def barsOf (s : Store) (symbol : String) : List DailyBar := ((s.bars.get? symbol).map (·.entries.map (·.2))).getD []

/-- The bars of a symbol between two days, each with the text of its day, as far as that is a day. -/
def readBars (s : Store) (symbol : String) (start finish : Date) : List (String × Bar) :=
  ((s.barsOf symbol).filter fun b => start.toText ≤ b.day ∧ b.day ≤ finish.toText).filterMap fun b => b.bar?.map (b.day, ·)

section Bars

variable {s : Store} {symbol : String} {start finish : Date}

/-- The series of a symbol is of its bars between the two days. -/
theorem series?_eq (hopen : s.isClosed = false) : s.series? symbol start finish =
    if (s.readBars symbol start finish).isEmpty then none else some (.ofBars ((s.readBars symbol start finish).map (·.2))) := by
  have hbars : s.barsBetween symbol start finish =
      .ok ((s.barsOf symbol).filter fun b => start.toText ≤ b.day ∧ b.day ≤ finish.toText) := by
    rw [barsBetween, answer, hopen]
    rfl
  have hread : ((s.barsOf symbol).filter fun b => start.toText ≤ b.day ∧ b.day ≤ finish.toText).filterMap DailyBar.bar? =
      (s.readBars symbol start finish).map (·.2) := by
    rw [readBars, List.map_filterMap]
    refine List.filterMap_congr fun b _ => ?_
    rw [Option.map_map]
    exact Option.map_id'.symm
  rw [series?, hbars]
  dsimp only
  rw [hread, List.isEmpty_map]

/-- A closed store has no series. -/
theorem series?_of_isClosed (hclosed : s.isClosed = true) : s.series? symbol start finish = none := by
  rw [series?, barsBetween, answer, hclosed]
  rfl

theorem mem_barsOf {b : DailyBar} :
    b ∈ s.barsOf symbol ↔ ∃ bars day, s.bars.get? symbol = some bars ∧ bars.get? day = some b := by
  rw [barsOf]
  cases s.bars.get? symbol with
  | none => simp
  | some bars => simp [Named.get?_eq_some_iff]

/-- The bars between two days come in increasing order of the texts of their days. -/
theorem sorted_readBars (hs : s.BarsKept) : (s.readBars symbol start finish).Pairwise fun a b => a.1 < b.1 := by
  have hdays : (s.barsOf symbol).Pairwise fun a b => a.day < b.day := by
    rw [barsOf]
    cases hbars : s.bars.get? symbol with
    | none => exact .nil
    | some bars =>
      have hday : ∀ e ∈ bars.entries, e.2.day = e.1 := fun e he =>
        hs symbol bars hbars e.1 e.2 ((Named.get?_eq_some_iff bars e.1 e.2).2 he)
      refine List.pairwise_map.2 (bars.sorted.imp_of_mem fun {a b} ha hb hlt => ?_)
      rwa [hday a ha, hday b hb]
  refine (hdays.filter _).filterMap _ fun a b hlt x hx y hy => ?_
  obtain ⟨-, -, rfl⟩ := Option.map_eq_some_iff.1 hx
  obtain ⟨-, -, rfl⟩ := Option.map_eq_some_iff.1 hy
  exact hlt

end Bars

/-! ## Stores that agree on a symbol -/

/-- The stores have the same bars of the symbol from one day to another. -/
def SameBars (X Y : Store) (symbol : String) (start finish : Date) : Prop :=
  ∀ d : Date, d.IsDay → start.le d = true → d.le finish = true → X.barOn? symbol d = Y.barOn? symbol d

/-- The symbol has no bar from one day to another. -/
def NoBars (s : Store) (symbol : String) (start finish : Date) : Prop :=
  ∀ d : Date, d.IsDay → start.le d = true → d.le finish = true → s.barOn? symbol d = none

theorem SameBars.symm {X Y : Store} {symbol : String} {start finish : Date} (h : X.SameBars Y symbol start finish) :
    Y.SameBars X symbol start finish :=
  fun d hd hstart hend => (h d hd hstart hend).symm

section Window

variable {finish : Date} (hfinish : finish.IsDay) {days : Nat} {symbol : String}
include hfinish

/-- A bar that is read is the bar of a day from the first day to the last. -/
theorem exists_barOn_of_mem {s : Store} (hs : s.Sound symbol) {e : String × Bar}
    (he : e ∈ s.readBars symbol (finish.minusDays days) finish) :
    ∃ d b, d.IsDay ∧ (finish.minusDays days).le d = true ∧ d.le finish = true ∧ s.barOn? symbol d = some b ∧
      b.bar?.map (b.day, ·) = some e ∧ (finish.minusDays days).toText ≤ b.day ∧ b.day ≤ finish.toText := by
  obtain ⟨b, hb, he⟩ := List.mem_filterMap.1 he
  obtain ⟨hb, hbetween⟩ := List.mem_filter.1 hb
  obtain ⟨hstart, hend⟩ := of_decide_eq_true hbetween
  obtain ⟨bars, day, hbars, hday⟩ := mem_barsOf.1 hb
  obtain rfl := hs.barsKept symbol bars hbars day b hday
  obtain ⟨bar, hbar, -⟩ := Option.map_eq_some_iff.1 he
  obtain ⟨d, hd, -⟩ := Option.bind_eq_some_iff.1 hbar
  obtain ⟨hplain, hday', htext⟩ := (hs.daysWritten bars hbars b.day b hday).of_readStored? hd
  have hwindow := Date.le_of_between hfinish days hplain (htext ▸ hstart) (htext ▸ hend)
  refine ⟨d, b, hday', hwindow.1, hwindow.2, ?_, he, hstart, hend⟩
  rw [barOn?, hbars, Option.bind_some, ← htext, hday]

/-- A bar that is read of the one store is read of the other. -/
theorem SameBars.mem_readBars {X Y : Store} (h : X.SameBars Y symbol (finish.minusDays days) finish) (hX : X.Sound symbol)
    {e : String × Bar} (he : e ∈ X.readBars symbol (finish.minusDays days) finish) :
    e ∈ Y.readBars symbol (finish.minusDays days) finish := by
  obtain ⟨d, b, hd, hfirst, hlast, hon, he, hstart, hend⟩ := exists_barOn_of_mem hfinish hX he
  rw [h d hd hfirst hlast] at hon
  obtain ⟨bars, hbars, hday⟩ := Option.bind_eq_some_iff.1 hon
  exact List.mem_filterMap.2 ⟨b, List.mem_filter.2 ⟨mem_barsOf.2 ⟨bars, _, hbars, hday⟩, decide_eq_true ⟨hstart, hend⟩⟩, he⟩

/-- The stores give the same series of the symbol. -/
theorem SameBars.series?_eq {X Y : Store} (h : X.SameBars Y symbol (finish.minusDays days) finish)
    (hclosed : X.isClosed = Y.isClosed) (hX : X.Sound symbol) (hY : Y.Sound symbol) :
    X.series? symbol (finish.minusDays days) finish = Y.series? symbol (finish.minusDays days) finish := by
  have hread : X.readBars symbol (finish.minusDays days) finish = Y.readBars symbol (finish.minusDays days) finish :=
    Named.eq_of_sorted (sorted_readBars hX.barsKept) (sorted_readBars hY.barsKept) fun e =>
      ⟨h.mem_readBars hfinish hX, h.symm.mem_readBars hfinish hY⟩
  cases hstate : X.isClosed with
  | false => rw [Store.series?_eq hstate, Store.series?_eq (hclosed.symm.trans hstate), hread]
  | true => rw [series?_of_isClosed hstate, series?_of_isClosed (hclosed.symm.trans hstate)]

/-- A symbol without bars from the first day to the last has no series. -/
theorem NoBars.series?_eq_none {s : Store} (hnone : s.NoBars symbol (finish.minusDays days) finish) (hs : s.Sound symbol) :
    s.series? symbol (finish.minusDays days) finish = none := by
  have hread : s.readBars symbol (finish.minusDays days) finish = [] := by
    refine List.eq_nil_iff_forall_not_mem.2 fun e he => ?_
    obtain ⟨d, b, hd, hfirst, hlast, hon, -⟩ := exists_barOn_of_mem hfinish hs he
    exact absurd (hon.symm.trans (hnone d hd hfirst hlast)) nofun
  cases hopen : s.isClosed with
  | false =>
    rw [series?_eq hopen, hread]
    rfl
  | true => exact series?_of_isClosed hopen

end Window

end Store
end EquityScreen
