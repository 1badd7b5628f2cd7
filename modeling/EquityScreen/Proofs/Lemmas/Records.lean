import EquityScreen.Proofs.Lemmas.Doubles
import EquityScreen.Proofs.Lemmas.Names
import EquityScreen.Proofs.Lemmas.Rows
import EquityScreen.Proofs.Lemmas.Transactions

/-!
# Records as snapshots and as rows

A record the table keeps has no missing value (`Record.Kept`), so its snapshot and its row hold what its columns hold, and
the row is the one a computed screen makes of the snapshot (`Record.row_eq_ofSnapshot`). Every store that is made by writing
to an empty one keeps only such records, each under its own symbol (`Store.kept_of_writes`).
-/

namespace EquityScreen

/-! ## Snapshots -/

namespace Record

/-- The names of the columns with a value are names of columns, in order. -/
theorem labels_filterMap (value? : Column → Option Value) (cs : List Column) :
    (cs.filterMap fun c => (value? c).map (c.label, ·)).map (·.1) =
      (cs.filter fun c => (value? c).isSome).map Column.label := by
  induction cs with
  | nil => rfl
  | cons c rest ih => cases hv : value? c <;> simp [hv, ih]

/-- What a snapshot has under a name is what the column of the name holds, if it is not missing. -/
theorem get?_snapshot (r : Record) (name : String) :
    r.snapshot.get? name = (Column.ofName? name).bind fun c => (r.cell? c).filter (!·.isMissing) := by
  have hlabels : ((Column.all.filterMap fun c =>
      ((r.cell? c).filter (!·.isMissing)).map (c.label, ·)).map (·.1)).Nodup := by
    have hall : (Column.all.map Column.label).Nodup := by decide
    rw [labels_filterMap]
    exact hall.sublist (List.filter_sublist.map _)
  refine Option.ext fun v => ?_
  rw [snapshot, Named.get?_ofList_eq_some_iff hlabels, List.mem_filterMap, Option.bind_eq_some_iff]
  constructor
  · rintro ⟨c, -, hc⟩
    obtain ⟨w, hw, heq⟩ := Option.map_eq_some_iff.1 hc
    obtain ⟨rfl, rfl⟩ := Prod.mk.inj heq
    exact ⟨c, Column.ofName?_label c, hw⟩
  · rintro ⟨c, hc, hv⟩
    refine ⟨c, Column.mem_all c, ?_⟩
    rw [hv, ← Column.label_of_ofName? hc]
    rfl

/-- A record whose numbers are all ones the table keeps. -/
def Kept (r : Record) : Prop := ∀ c x, r.number c = some x → IsTame x

/-- A record is kept as a kept one. -/
theorem kept_stored (r : Record) : r.stored.Kept := by
  intro c x hx
  obtain ⟨y, -, hy⟩ := Option.bind_eq_some_iff.1 hx
  exact isTame_of_storedNumber hy

/-- No column of a kept record holds a missing value. -/
theorem isMissing_of_kept {r : Record} (h : r.Kept) {c : Column} {v : Value} (hv : r.cell? c = some v) :
    v.isMissing = false := by
  cases c with
  | symbol =>
    obtain rfl := Option.some.inj hv
    rfl
  | text c =>
    obtain ⟨s, -, rfl⟩ := Option.map_eq_some_iff.1 hv
    rfl
  | number c =>
    obtain ⟨x, hx, rfl⟩ := Option.map_eq_some_iff.1 hv
    exact (h c x hx).isNumber

/-- The snapshot of a kept record has what its columns hold. -/
theorem get?_snapshot_of_kept {r : Record} (h : r.Kept) (name : String) :
    r.snapshot.get? name = (Column.ofName? name).bind r.cell? := by
  rw [get?_snapshot]
  congr 1
  funext c
  cases hv : r.cell? c with
  | none => rfl
  | some v => simp [isMissing_of_kept h hv]

/-- A column of numbers holds a number and any other a text. -/
theorem cell?_number {r : Record} {c : Column} {v : Value} (hc : c.isNumeric = true) (hv : r.cell? c = some v) :
    ∃ x, v = .number x := by
  cases c with
  | symbol => exact absurd hc (by decide)
  | text c => exact absurd hc Bool.false_ne_true
  | number c =>
    obtain ⟨x, -, rfl⟩ := Option.map_eq_some_iff.1 hv
    exact ⟨x, rfl⟩

theorem cell?_text {r : Record} {c : Column} {v : Value} (hc : c.isNumeric = false) (hv : r.cell? c = some v) :
    ∃ s, v = .text s := by
  cases c with
  | symbol => exact ⟨r.symbol, (Option.some.inj hv).symm⟩
  | text c =>
    obtain ⟨s, -, rfl⟩ := Option.map_eq_some_iff.1 hv
    exact ⟨s, rfl⟩
  | number c => exact absurd hc.symm Bool.false_ne_true

/-- The numbers of a kept record are ones the table keeps. -/
theorem isTame_of_cell {r : Record} (h : r.Kept) {c : Column} {x : Float} (hx : r.cell? c = some (.number x)) : IsTame x := by
  cases c with
  | symbol => exact absurd hx (by simp [cell?])
  | text c => exact absurd hx (by simp [cell?])
  | number c =>
    obtain ⟨y, hy, heq⟩ := Option.map_eq_some_iff.1 hx
    obtain rfl := Value.number.inj heq
    exact h c y hy

end Record

/-! ## Rows -/

namespace Row

/-- The row of a snapshot without missing values holds the snapshot, the symbol apart. -/
theorem ofSnapshot_eq {m : Snapshot} (h : ∀ e ∈ m.entries, e.2.isMissing = false) (symbol : String) :
    ofSnapshot symbol (some m) = ⟨symbol, m.erase "symbol"⟩ := by
  have hpresent : ∀ field, (m.get? field).filter (!·.isMissing) = m.get? field := by
    intro field
    cases hv : m.get? field with
    | none => rfl
    | some v => simp [h (field, v) ((m.get?_eq_some_iff field v).1 hv)]
  have hfields : (ofSnapshot symbol (some m)).fields = m.erase "symbol" := by
    refine Named.ext_get? fun field => ?_
    show (ofSnapshot symbol (some m)).get? field = _
    rw [get?_ofSnapshot, Named.get?_erase, ← hpresent]
    rfl
  calc ofSnapshot symbol (some m)
    _ = ⟨(ofSnapshot symbol (some m)).symbol, (ofSnapshot symbol (some m)).fields⟩ := rfl
    _ = ⟨symbol, m.erase "symbol"⟩ := by rw [symbol_ofSnapshot, hfields]

end Row

namespace Record

/-- Both routes make one row of a record. -/
theorem row_eq_ofSnapshot (r : Record) : r.row = Row.ofSnapshot r.symbol (some r.snapshot) := by
  refine (Row.ofSnapshot_eq ?_ r.symbol).symm
  intro e he
  have hget := (Named.get?_eq_some_iff r.snapshot e.1 e.2).2 he
  rw [get?_snapshot] at hget
  obtain ⟨c, -, hv⟩ := Option.bind_eq_some_iff.1 hget
  simpa using (Option.filter_eq_some_iff.1 hv).2

/-- The row of a kept record is sorted by what its columns hold. -/
theorem sortValue?_row {r : Record} (h : r.Kept) {name : String} {c : Column} (hc : Column.ofName? name = some c) :
    r.row.sortValue? name = r.cell? c := by
  rw [Row.sortValue?]
  by_cases hs : name = "symbol"
  · subst hs
    obtain rfl : .symbol = c := Option.some.inj ((Column.ofName?_label .symbol).symm.trans hc)
    rw [if_pos rfl]
    rfl
  · rw [if_neg hs, Row.get?, row, Named.get?_erase, if_neg hs, get?_snapshot_of_kept h, hc, Option.bind_some]
    cases hv : r.cell? c with
    | none => rfl
    | some v => simp [isMissing_of_kept h hv]

@[simp] theorem symbol_row (r : Record) : r.row.symbol = r.symbol := rfl

end Record

/-! ## Stores -/

namespace Store

/-- Every record is kept, and under its own symbol. -/
def Kept (s : Store) : Prop := ∀ e ∈ s.snapshots.entries, e.2.symbol = e.1 ∧ e.2.Kept

/-- The records of a kept store have different symbols. -/
theorem nodup_symbols {s : Store} (h : s.Kept) : (s.records.map (·.symbol)).Nodup := by
  have hnames : s.records.map (·.symbol) = s.snapshots.names := by
    rw [records, List.map_map]
    exact List.map_congr_left fun e he => (h e he).1
  rw [hnames]
  exact s.snapshots.nodup_names

theorem kept_of_mem_records {s : Store} (h : s.Kept) {r : Record} (hr : r ∈ s.records) : r.Kept := by
  obtain ⟨e, he, rfl⟩ := List.mem_map.1 hr
  exact (h e he).2

/-- The record of a symbol is the record with the symbol. -/
theorem get?_snapshots_eq_some_iff {s : Store} (h : s.Kept) {symbol : String} {r : Record} :
    s.snapshots.get? symbol = some r ↔ r ∈ s.records ∧ r.symbol = symbol := by
  rw [Named.get?_eq_some_iff]
  constructor
  · intro he
    exact ⟨List.mem_map.2 ⟨_, he, rfl⟩, (h _ he).1⟩
  · rintro ⟨hr, rfl⟩
    obtain ⟨e, he, rfl⟩ := List.mem_map.1 hr
    rw [(h e he).1]
    exact he

/-- What is written to a store. -/
inductive Write where
  | snapshot (r : Record)
  | quote (q : QuoteRecord)
  | bars (bs : List DailyBar)

/-- The store with something written. -/
def write (s : Store) : Write → Except StoreError Store
  | .snapshot r => s.putSnapshot r
  | .quote q => s.putQuote q
  | .bars bs => s.importBars bs

/-- A write keeps a kept store so. -/
theorem kept_write {s s' : Store} {w : Write} (h : s.Kept) (hw : s.write w = .ok s') : s'.Kept := by
  cases w with
  | snapshot r =>
    obtain ⟨-, rfl⟩ := answer_eq_ok hw
    intro e he
    rcases Named.mem_insertEntry he with rfl | he
    · exact ⟨rfl, r.kept_stored⟩
    · exact h e he
  | quote q =>
    obtain ⟨-, rfl⟩ := answer_eq_ok hw
    exact h
  | bars bs =>
    rw [eq_of_foldlM_putBar (importBars_eq_ok hw).2]
    exact h

/-- Every store that writes make of the empty one is kept. -/
theorem kept_of_writes {ws : List Write} {s : Store} (h : ws.foldlM write {} = .ok s) : s.Kept :=
  foldlM_inv kept_write (fun e he => absurd he (by simp [Named.empty])) h

end Store
end EquityScreen
