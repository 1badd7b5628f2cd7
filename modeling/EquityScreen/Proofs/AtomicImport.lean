import EquityScreen.Proofs.Lemmas.Transactions

/-!
# Bars are imported all or none

A batch of bars is written in one transaction. Either every bar of it is written, in the order of the batch and so that the
last of a symbol and a day is its row, or the tables are what they were, whichever bar failed and however many rows had been
replaced before it (`bars_written_all_or_none`). What decides is known beforehand: the store is open, no step of the transaction
fails by itself, and each bar has its four prices.
-/

namespace EquityScreen
namespace Store

/-- Every row of bars stands under its own symbol and its own day. -/
def BarsKeyed (s : Store) : Prop := ∀ symbol day b, s.row? symbol day = some b → b.symbol = symbol ∧ b.day = day

/-- All rows of bars. -/
def barRows (s : Store) : List DailyBar := s.bars.entries.flatMap fun e => e.2.entries.map (·.2)

/-- The symbols and days of all rows of bars. -/
def barKeys (s : Store) : List (String × String) := s.barRows.map fun b => (b.symbol, b.day)

/-- Of rows that stand under their own symbols and days no two have one symbol and one day. -/
theorem BarsKeyed.nodup_barKeys {s : Store} (h : s.BarsKeyed) : s.barKeys.Nodup := by
  have hkeys : s.barKeys = s.bars.entries.flatMap fun e => e.2.names.map (e.1, ·) := by
    rw [barKeys, barRows, List.map_flatMap]
    refine List.flatMap_congr fun e he => ?_
    rw [Named.names, List.map_map, List.map_map]
    refine List.map_congr_left fun f hf => ?_
    have hrow : s.row? e.1 f.1 = some f.2 := by
      rw [row?, (Named.get?_eq_some_iff s.bars e.1 e.2).2 he, Option.bind_some, (Named.get?_eq_some_iff e.2 f.1 f.2).2 hf]
    obtain ⟨hsymbol, hday⟩ := h e.1 f.1 f.2 hrow
    exact Prod.ext hsymbol hday
  rw [hkeys, List.nodup_flatMap]
  refine ⟨fun e _ => e.2.nodup_names.map fun _ _ heq => (Prod.mk.inj heq).2, s.bars.sorted.imp fun {e f} hlt => ?_⟩
  refine List.disjoint_left.2 fun key hleft hright => ?_
  obtain ⟨_, -, rfl⟩ := List.mem_map.1 hleft
  obtain ⟨_, -, heq⟩ := List.mem_map.1 hright
  rw [(Prod.mk.inj heq).1] at hlt
  exact String.lt_irrefl _ hlt

/-- The second store is the first with the bars of a batch written. -/
structure HasWritten (before : Store) (bs : List DailyBar) (after : Store) : Prop where
  /-- The bars are written one after another. -/
  applied : bs.foldlM putBar before = .ok after
  /-- The row of a symbol and a day is the last of its bars, and without one the row it was. -/
  rows : ∀ symbol day, after.row? symbol day =
    match DailyBar.lastOf bs symbol day with
    | some b => b.stored?
    | none => before.row? symbol day
  /-- There is one row for a symbol and a day. -/
  keyed : before.BarsKeyed → after.BarsKeyed ∧ after.barKeys.Nodup
  /-- No other table is changed. -/
  rest : after = { before with bars := after.bars }

/-- A write puts its row under its own symbol and day. -/
theorem barsKeyed_putBar {s s' : Store} {b : DailyBar} (hs : s.BarsKeyed) (h : s.putBar b = .ok s') : s'.BarsKeyed := by
  intro symbol day b' hrow
  rw [row?_putBar h] at hrow
  split at hrow
  · rename_i hkey
    rw [hkey.1, hkey.2]
    exact DailyBar.keys_stored? hrow
  · exact hs symbol day b' hrow

/-- Bars that are written one after another are written as a batch. -/
theorem HasWritten.of_foldlM {s after : Store} {bs : List DailyBar} (h : bs.foldlM putBar s = .ok after) :
    s.HasWritten bs after where
  applied := h
  rows := row?_foldlM_putBar h
  keyed hs :=
    have hafter := foldlM_inv barsKeyed_putBar hs h
    ⟨hafter, hafter.nodup_barKeys⟩
  rest := eq_of_foldlM_putBar h

/-- Bars are written all, and counted, or none, whatever step of the transaction fails. None are if the store is closed, the
transaction cannot begin, a write fails or its bar lacks a price, wherever in the batch it stands, or the writes cannot be
committed in the end. -/
theorem bars_written_all_or_none (s : Store) (bs : List DailyBar) (faults : Faults) :
    match s.upsertBars bs faults with
    | (.ok written, after) =>
      s.isClosed = false ∧ (∀ b ∈ bs, b.HasPrices) ∧ written = bs.length ∧ s.HasWritten bs after ∧
        faults.SpareWrites bs.length ∧ faults.commits = none
    | (.error e, after) => after = s ∧
      (s.isClosed = true ∧ e = .closed ∨
        s.isClosed = false ∧ (faults.begins = some e ∨
          (∃ front b rest, bs = front ++ b :: rest ∧ (∀ a ∈ front, a.HasPrices) ∧ faults.SpareWrites front.length ∧
            (faults.writes front.length = some e ∨
              faults.writes front.length = none ∧ e = .missingPrice ∧ ¬b.HasPrices)) ∨
          (∀ b ∈ bs, b.HasPrices) ∧ faults.SpareWrites bs.length ∧ faults.commits = some e)) := by
  rcases hall : s.upsertBars bs faults with ⟨e | written, after⟩
  · exact upsertBars_eq_error hall
  · obtain ⟨hopen, hwritten, hwrites, hspare, hcommits⟩ := upsertBars_eq_ok hall
    exact ⟨hopen, hasPrices_of_foldlM_putBar hwrites, hwritten, .of_foldlM hwrites, hspare, hcommits⟩

/-- A bar of one symbol and one day with one price for all. -/
def flatBar (price : Float) : DailyBar := ⟨"000001", "2024-01-02", price, price, price, price, 1000, none⟩

-- A batch replaces a row and fails at its second bar; the row is again what it was.
example :
    ((({} : Store).upsertBars [flatBar 10, flatBar 11]).2.row? "000001" "2024-01-02").map (·.close) = some 11 ∧
    ((({} : Store).upsertBars [flatBar 10]).2.upsertBars [flatBar 11, flatBar notANumber]).1.isOk = false ∧
    (((({} : Store).upsertBars [flatBar 10]).2.upsertBars [flatBar 11, flatBar notANumber]).2.row?
      "000001" "2024-01-02").map (·.close) = some 10 := by
  decide +kernel

-- So it is again when the writes cannot be committed.
example :
    ((({} : Store).upsertBars [flatBar 10]).2.upsertBars [flatBar 11] { commits := some .closed }).1.isOk = false ∧
    (((({} : Store).upsertBars [flatBar 10]).2.upsertBars [flatBar 11] { commits := some .closed }).2.row?
      "000001" "2024-01-02").map (·.close) = some 10 := by
  decide +kernel

end Store
end EquityScreen
