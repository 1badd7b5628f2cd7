import EquityScreen.Proofs.Lemmas.Maps
import EquityScreen.Screening.Service

/-!
# What a row shows

A row is made by setting fields one after another, each to a value that may be absent or missing; such a value sets nothing.
So of several values set under one name the last that is there is shown, and else what the row showed before
(`get?_foldl_setSome`). The row of a snapshot and the row with the last numbers of a series are made in this way. No step of it
changes the symbol of a row.
-/

namespace EquityScreen

/-- What is no column has no last number. -/
theorem Series.last?_of_not_contains {s : Series} {field : String} (h : s.columns.contains field = false) :
    s.last? field = none := by
  rw [Named.contains_eq_isSome, Option.isSome_eq_false_iff, Option.isNone_iff_eq_none] at h
  rw [last?, fromEnd?, column?, h]
  rfl

namespace Row

/-! ## Symbols -/

@[simp] theorem symbol_set (r : Row) (field : String) (v : Value) : (r.set field v).symbol = r.symbol := by
  unfold set
  split <;> rfl

/-- Changing a row by steps that keep its symbol keeps it. -/
theorem symbol_foldl {α : Type} {step : Row → α → Row} (h : ∀ r a, (step r a).symbol = r.symbol) (as : List α) (r : Row) :
    (as.foldl step r).symbol = r.symbol := by
  induction as generalizing r with
  | nil => rfl
  | cons a rest ih => rw [List.foldl_cons, ih, h]

@[simp] theorem symbol_ofSnapshot (symbol : String) (snapshot : Option Snapshot) :
    (ofSnapshot symbol snapshot).symbol = symbol := by
  have hset : ∀ (r : Row) (e : String × Value), (r.set e.1 e.2).symbol = r.symbol := fun r e => r.symbol_set e.1 e.2
  exact symbol_foldl hset _ (.ofSymbol symbol)

@[simp] theorem symbol_withLast (r : Row) (s : Series) : (r.withLast s).symbol = r.symbol := by
  refine symbol_foldl (fun r name => ?_) _ _
  cases s.last? name <;> simp

@[simp] theorem symbol_withDay (r : Row) (s : Series) : (r.withDay s).symbol = r.symbol := by
  unfold withDay
  cases s.dates.getLast? <;> simp

/-! ## Fields -/

/-- The row with the field set, if there is a value for it. -/
def setSome (r : Row) (field : String) : Option Value → Row
  | some v => r.set field v
  | none => r

theorem get?_set (r : Row) (name field : String) (v : Value) :
    (r.set name v).get? field = if field = name ∧ v.isMissing = false then some v else r.get? field := by
  unfold set
  cases hv : v.isMissing with
  | true => simp
  | false => simp [get?]

theorem get?_setSome (r : Row) (name field : String) (v? : Option Value) :
    (r.setSome name v?).get? field =
      if field = name then (v?.filter (!·.isMissing)).or (r.get? field) else r.get? field := by
  cases v? with
  | none => simp [setSome]
  | some v =>
    rw [setSome, get?_set, Option.filter_some]
    by_cases hname : field = name
    · cases hv : v.isMissing <;> simp [hname]
    · simp [hname]

/-- Of a field that values are set for, the row shows the value, and of any other what it showed before. -/
theorem get?_foldl_setSome (value? : String → Option Value) (names : List String) (r : Row) (field : String) :
    (names.foldl (fun r name => r.setSome name (value? name)) r).get? field =
      (if field ∈ names then (value? field).filter (!·.isMissing) else none).or (r.get? field) := by
  induction names generalizing r with
  | nil => rfl
  | cons name rest ih =>
    rw [List.foldl_cons, ih, get?_setSome]
    by_cases hname : field = name
    · subst hname
      rw [if_pos rfl, if_pos List.mem_cons_self, ← Option.or_assoc]
      split <;> simp
    · simp [hname]

/-- The row of a snapshot shows what the snapshot has, missing values and the symbol apart. -/
theorem get?_ofSnapshot (symbol : String) (snapshot : Option Snapshot) (field : String) :
    (ofSnapshot symbol snapshot).get? field =
      if field = "symbol" then none else (snapshot.bind (·.get? field)).filter (!·.isMissing) := by
  have hnone : (ofSymbol symbol).get? field = none := rfl
  have hempty : snapshot.bind (·.get? field) = (snapshot.getD .empty).get? field := by cases snapshot <;> rfl
  rw [hempty, ofSnapshot]
  generalize snapshot.getD .empty = m
  have hfold : (m.entries.filter (·.1 != "symbol")).foldl (fun r e => r.set e.1 e.2) (ofSymbol symbol) =
      ((m.entries.filter (·.1 != "symbol")).map (·.1)).foldl (fun r name => r.setSome name (m.get? name))
        (ofSymbol symbol) := by
    rw [List.foldl_map]
    refine List.foldl_ext _ _ _ fun r e he => ?_
    rw [(m.get?_eq_some_iff e.1 e.2).2 (List.mem_of_mem_filter he)]
    rfl
  rw [hfold, get?_foldl_setSome, hnone, Option.or_none]
  by_cases hfield : field = "symbol"
  · have hout : field ∉ (m.entries.filter (·.1 != "symbol")).map (·.1) := by simp [hfield]
    rw [if_neg hout, if_pos hfield]
  · rw [if_neg hfield]
    split
    · rfl
    · rename_i hout
      have habsent : m.get? field = none := by
        refine Option.eq_none_iff_forall_ne_some.2 fun v hv => hout ?_
        exact List.mem_map.2 ⟨_, List.mem_filter.2 ⟨(m.get?_eq_some_iff field v).1 hv, by simpa using hfield⟩, rfl⟩
      rw [habsent]
      rfl

/-- A row with the last numbers of a series shows them before what it showed. -/
theorem get?_withLast (r : Row) (s : Series) (field : String) :
    (r.withLast s).get? field = (((s.last? field).map .number).filter (!·.isMissing)).or (r.get? field) := by
  have hfold : r.withLast s =
      s.columns.names.foldl (fun r name => r.setSome name ((s.last? name).map .number)) r := by
    rw [withLast]
    congr 1
    funext r name
    cases s.last? name <;> rfl
  rw [hfold, get?_foldl_setSome]
  simp only [← Named.contains_iff_mem_names]
  split
  · rfl
  · rename_i hcontains
    rw [Series.last?_of_not_contains (Bool.eq_false_iff.2 hcontains)]
    rfl

/-- The last day is shown as `trade_date` and changes no other field. -/
theorem get?_withDay (r : Row) (s : Series) (field : String) :
    (r.withDay s).get? field =
      if field = "trade_date" then (s.dates.getLast?.map fun d => .text d.toText).or (r.get? field) else r.get? field := by
  have hset : r.withDay s = r.setSome "trade_date" (s.dates.getLast?.map fun d => .text d.toText) := by
    rw [withDay]
    cases s.dates.getLast? <;> rfl
  rw [hset, get?_setSome]
  cases s.dates.getLast? <;> rfl

end Row

end EquityScreen
