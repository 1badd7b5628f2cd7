import Mathlib.Data.List.Basic
import EquityScreen.Store.Selection

/-!
# What a predicate selects

What a predicate asks of a record is said once without clauses and unknown truths (`Record.satisfies`): a comparison needs a value
on either side, a range is two of them, and a list is as many as it has values. The clauses that a predicate is written as hold of
a record when it satisfies the predicate (`Predicate.truth_clauses`), so that the clauses of predicates select the records which
satisfy all of them (`Clause.select_clauses`).
-/

namespace EquityScreen

/-! ## Predicates of records -/

/-- A value bound against the column; the mark of a missing number is nothing. -/
def Column.bound? (c : Column) (v : Value) : Option StoredValue :=
  if v.isMissing then none else some (if c.isNumeric then .numeric v else .textual v)

namespace Record

/-- The value of a column where it is compared with another column: beside a column of numbers a text is read as one. -/
def cellBeside? (r : Record) (c other : Column) : Option StoredValue :=
  (r.cell? c).map (if other.isNumeric then .numeric else .ofValue)

/-- The column and the value are related. -/
def related (r : Record) (c : Column) (rel : Relation) (v : Value) : Bool :=
  match r.cell? c, c.bound? v with
  | some x, some y => rel.holds (.ofValue x) y
  | _, _ => false

/-- What is related is there. -/
theorem isSome_of_related {r : Record} {c : Column} {rel : Relation} {v : Value} (h : r.related c rel v = true) :
    (r.cell? c).isSome = true := by
  rw [related] at h
  cases hx : r.cell? c with
  | none => rw [hx] at h; exact absurd h Bool.false_ne_true
  | some x => rfl

/-- The record matches the predicate. -/
def satisfies (r : Record) : Predicate Column → Bool
  | .compare c rel v => r.related c rel v
  | .compareColumns c rel d =>
    match r.cellBeside? c d, r.cellBeside? d c with
    | some x, some y => rel.holds x y
    | _, _ => false
  | .range c low high => r.related c .gte (.number low) && r.related c .lte (.number high)
  | .among c vs => vs.any fun v => r.related c .eq v
  | .outside c vs => (r.cell? c).isSome && vs.all fun v => r.related c .ne v
  | .contains c needle =>
    match r.cell? c with
    | some (.text s) => like (Text.foldAscii s) (containsPattern needle)
    | some (.number x) => like (Text.foldAscii (storedText x)) (containsPattern needle)
    | none => false

end Record

/-- The clauses that a predicate is written as. Nothing is among no values, and outside of no values is whatever there is. -/
def Predicate.clauses : Predicate Column → List Clause
  | compare c rel v => [.compare (.column c) rel (.bound v)]
  | compareColumns c rel d => [.compare (.column c) rel (.column d)]
  | range c low high =>
    [.compare (.column c) .gte (.bound (.number low)), .compare (.column c) .lte (.bound (.number high))]
  | among _ [] => [.compare (.numeral 0) .eq (.numeral 1)]
  | among c vs => [.isIn c vs]
  | outside c [] => [.notNull c]
  | outside c vs => [.notIn c vs]
  | contains c needle => [.lowerLike c (.text (containsPattern needle))]

/-- The clauses that a filter is written as, one that always holds before those of the predicates. -/
def Filter.clauses (ps : List (Predicate Column)) : List Clause :=
  .compare (.numeral 1) .eq (.numeral 1) :: ps.flatMap Predicate.clauses

/-! ## Truth -/

namespace Truth

theorem ofAnswer_eq_holds {o : Option Bool} : ofAnswer o = holds ↔ o = some true := by
  rcases o with _ | _ | _ <;> simp [ofAnswer]

theorem and_eq_holds {s t : Truth} : s.and t = holds ↔ s = holds ∧ t = holds := by
  cases s <;> cases t <;> decide

theorem or_eq_holds {s t : Truth} : s.or t = holds ↔ s = holds ∨ t = holds := by
  cases s <;> cases t <;> decide

/-- All hold when each of them does. -/
theorem all_eq_holds {ts : List Truth} : all ts = holds ↔ ∀ t ∈ ts, t = holds := by
  induction ts with
  | nil => simp [all]
  | cons t rest ih =>
    show t.and (all rest) = holds ↔ _
    rw [and_eq_holds, ih, List.forall_mem_cons]

/-- Some hold when one of them does. -/
theorem any_eq_holds {ts : List Truth} : any ts = holds ↔ ∃ t ∈ ts, t = holds := by
  induction ts with
  | nil => simp [any]
  | cons t rest ih =>
    show t.or (any rest) = holds ↔ _
    rw [or_eq_holds, ih, List.exists_mem_cons_iff]

end Truth

/-! ## Clauses -/

namespace Clause

variable {r : Record}

/-- A comparison holds when both sides are there and related. -/
theorem related_eq_holds {left right : Side} {rel : Relation} : related r left rel right = .holds ↔
    ∃ x y, left.value? r right = some x ∧ right.value? r left = some y ∧ rel.holds x y = true := by
  rw [related, Truth.ofAnswer_eq_holds]
  cases left.value? r right <;> cases right.value? r left <;> simp

/-- A column is compared with a bound value as the predicate has it. -/
theorem related_bound (c : Column) (rel : Relation) (v : Value) :
    related r (.column c) rel (.bound v) = .holds ↔ r.related c rel v = true := by
  have hleft : (Side.column c).value? r (.bound v) = (r.cell? c).map .ofValue := rfl
  have hright : (Side.bound v).value? r (.column c) = c.bound? v := by
    simp only [Side.value?, Side.asksNumbers?, Column.bound?]
    cases c.isNumeric <;> rfl
  rw [related_eq_holds, hleft, hright, Record.related]
  cases r.cell? c <;> cases c.bound? v <;> simp

/-- Two columns are compared as the predicate has it. -/
theorem related_columns (c : Column) (rel : Relation) (d : Column) :
    related r (.column c) rel (.column d) = .holds ↔ r.satisfies (.compareColumns c rel d) = true := by
  have hbeside : ∀ c d : Column, (Side.column c).value? r (.column d) = r.cellBeside? c d := by
    intro c d
    simp only [Side.value?, Side.asksNumbers?, Record.cellBeside?]
    cases d.isNumeric <;> rfl
  rw [related_eq_holds, hbeside, hbeside, Record.satisfies]
  cases r.cellBeside? c d <;> cases r.cellBeside? d c <;> simp

/-- The text of a column is searched as the predicate has it. -/
theorem truth_lowerLike (c : Column) (needle : String) :
    truth r (.lowerLike c (.text (containsPattern needle))) = .holds ↔ r.satisfies (.contains c needle) = true := by
  have htruth : truth r (.lowerLike c (.text (containsPattern needle))) =
      .ofAnswer ((r.cell? c).map fun v => like (Text.foldAscii v.storeText) (containsPattern needle)) := rfl
  rw [htruth, Truth.ofAnswer_eq_holds, Record.satisfies]
  rcases r.cell? c with _ | _ | _ <;> simp [Value.storeText]

end Clause

/-- The clauses of a predicate all hold of a record when it satisfies the predicate. -/
theorem Predicate.truth_clauses (p : Predicate Column) (r : Record) :
    (∀ clause ∈ p.clauses, clause.truth r = .holds) ↔ r.satisfies p = true := by
  cases p with
  | compare c rel v => exact List.forall_mem_singleton.trans (Clause.related_bound c rel v)
  | compareColumns c rel d => exact List.forall_mem_singleton.trans (Clause.related_columns c rel d)
  | range c low high =>
    rw [clauses, List.forall_mem_cons, List.forall_mem_singleton, Record.satisfies, Bool.and_eq_true]
    exact and_congr (Clause.related_bound c .gte _) (Clause.related_bound c .lte _)
  | among c vs =>
    cases vs with
    | nil => exact List.forall_mem_singleton.trans (iff_of_false nofun Bool.false_ne_true)
    | cons v vs =>
      refine List.forall_mem_singleton.trans ?_
      rw [Clause.truth, Truth.any_eq_holds, Record.satisfies, List.any_eq_true]
      simp only [List.mem_map, exists_exists_and_eq_and, Clause.related_bound]
  | outside c vs =>
    cases vs with
    | nil =>
      refine List.forall_mem_singleton.trans ?_
      rw [Clause.truth, Truth.ofAnswer_eq_holds, Record.satisfies]
      simp
    | cons v vs =>
      refine List.forall_mem_singleton.trans ?_
      rw [Clause.truth, Truth.all_eq_holds, Record.satisfies, Bool.and_eq_true, List.all_eq_true]
      simp only [List.forall_mem_map, Clause.related_bound]
      -- What differs from the first value is there. Only outside of no values does that take a clause of its own.
      refine ⟨fun h => ⟨?_, h⟩, And.right⟩
      exact Record.isSome_of_related (h v List.mem_cons_self)
  | contains c needle => exact List.forall_mem_singleton.trans (Clause.truth_lowerLike c needle)

namespace Clause

/-- Clauses select the records of which each of them holds. -/
theorem select_iff {clauses : List Clause} {r : Record} :
    select clauses r = true ↔ ∀ clause ∈ clauses, clause.truth r = .holds := by
  rw [select, decide_eq_true_iff, Truth.all_eq_holds, List.forall_mem_map]

/-- The clauses of a filter select the records that satisfy its predicates. -/
theorem select_clauses (ps : List (Predicate Column)) (r : Record) :
    select (Filter.clauses ps) r = ps.all r.satisfies := by
  have halways : truth r (.compare (.numeral 1) .eq (.numeral 1)) = .holds := rfl
  rw [Bool.eq_iff_iff, select_iff, Filter.clauses, List.forall_mem_cons, List.all_eq_true]
  simp only [halways, true_and, List.forall_mem_flatMap]
  exact forall₂_congr fun p _ => p.truth_clauses r

end Clause

end EquityScreen
