import EquityScreen.Proofs.Lemmas.Answers
import EquityScreen.Proofs.Lemmas.Names
import EquityScreen.Store.Filter

/-!
# Checked columns

A predicate that passes its check is the same predicate under the names of its columns (`Predicate.rename_check`). What reads
names one after another is refused for the first of them that is the name of no column, and for no other reason
(`RefusedFor`); this is kept when readers follow one another, so it holds of names, of predicates and of filters.
-/

namespace EquityScreen

/-- The first of the names that is the name of no column. -/
def firstUnknown? (names : List String) : Option String := names.find? fun name => (Column.ofName? name).isNone

/-- The answer is refused just for the first of the names that is the name of no column. -/
def RefusedFor {α : Type} (names : List String) (answer : Except UnknownColumn α) : Prop :=
  ∀ e, answer = .error e ↔ firstUnknown? names = some e.name

namespace RefusedFor

variable {α β : Type}

/-- What reads no name is not refused. -/
theorem ok (a : α) : RefusedFor [] (.ok a) := by
  intro e
  simp [firstUnknown?]

/-- A name is refused by itself. -/
theorem check (name : String) : RefusedFor [name] (Column.check name) := by
  rintro ⟨refused⟩
  rw [Column.check]
  cases h : Column.ofName? name <;> simp [firstUnknown?, h]

/-- What is not refused has read names of columns alone. -/
theorem firstUnknown?_eq_none {names : List String} {a : α} (h : RefusedFor names (.ok a)) : firstUnknown? names = none := by
  rw [Option.eq_none_iff_forall_ne_some]
  intro refused hfirst
  exact absurd ((h ⟨refused⟩).2 hfirst) (by simp)

theorem exists_label {names : List String} {a : α} (h : RefusedFor names (.ok a)) {name : String} (hname : name ∈ names) :
    ∃ c : Column, c.label = name := by
  have hknown := List.find?_eq_none.1 h.firstUnknown?_eq_none name hname
  cases hc : Column.ofName? name with
  | none => exact absurd (by rw [hc]; rfl) hknown
  | some c => exact ⟨c, Column.label_of_ofName? hc⟩

/-- Names that are read one after another: what comes later is looked at when nothing before it is refused. -/
theorem bind {names more : List String} {x : Except UnknownColumn α} {f : α → Except UnknownColumn β}
    (hx : RefusedFor names x) (hf : ∀ a, RefusedFor more (f a)) : RefusedFor (names ++ more) (x >>= f) := by
  intro e
  rw [firstUnknown?, List.find?_append]
  cases x with
  | error e' =>
    rw [show names.find? _ = some e'.name from (hx e').1 rfl, Option.some_or, ← (hx e').1 rfl, ← hx e]
    simp [Bind.bind, Except.bind]
  | ok a =>
    rw [show names.find? _ = none from hx.firstUnknown?_eq_none, Option.none_or]
    exact hf a e

/-- A list is refused for the first name of its items that is the name of no column. -/
theorem mapM {f : α → Except UnknownColumn β} {names : α → List String} (h : ∀ a, RefusedFor (names a) (f a))
    (items : List α) : RefusedFor (items.flatMap names) (items.mapM f) := by
  induction items with
  | nil => exact ok []
  | cons a rest ih =>
    rw [List.mapM_cons, List.flatMap_cons, ← List.append_nil (rest.flatMap names)]
    exact (h a).bind fun b => ih.bind fun bs => ok (b :: bs)

end RefusedFor

theorem Column.label_of_check {name : String} {c : Column} (h : Column.check name = .ok c) : c.label = name := by
  rw [Column.check] at h
  cases hname : Column.ofName? name with
  | none =>
    rw [hname] at h
    exact absurd h (by simp)
  | some d =>
    rw [hname] at h
    obtain rfl := Except.ok.inj h
    exact label_of_ofName? hname

theorem ColumnSort.refused_check (s : ColumnSort String) : RefusedFor [s.column] s.check :=
  (RefusedFor.check s.column).bind fun c => .ok (⟨c, s.direction⟩ : ColumnSort Column)

namespace Predicate

variable {κ ι : Type}

/-- The columns a predicate names, the one it is about before the one it is compared with. -/
def columns : Predicate κ → List κ
  | compareColumns c _ d => [c, d]
  | p => [p.column]

/-- The predicate with its columns named otherwise. -/
def rename (f : κ → ι) : Predicate κ → Predicate ι
  | compare c rel v => compare (f c) rel v
  | compareColumns c rel d => compareColumns (f c) rel (f d)
  | range c low high => range (f c) low high
  | among c vs => among (f c) vs
  | outside c vs => outside (f c) vs
  | contains c needle => contains (f c) needle

/-- A predicate is refused for the first of its names that is the name of no column. -/
theorem refused_check (p : Predicate String) : RefusedFor p.columns p.check := by
  cases p
  case compareColumns name rel other =>
    exact (RefusedFor.check name).bind fun c => (RefusedFor.check other).bind fun d => .ok (compareColumns c rel d)
  all_goals exact (RefusedFor.check _).bind fun c => .ok _

/-- A predicate passes its check when each column it names does. -/
theorem exists_check {p : Predicate String} (h : ∀ name ∈ p.columns, ∃ c, Column.check name = .ok c) :
    ∃ q, p.check = .ok q := by
  cases hp : p.check with
  | ok q => exact ⟨q, rfl⟩
  | error e =>
    have hunknown := (p.refused_check e).1 hp
    obtain ⟨c, hc⟩ := h e.name (List.mem_of_find?_eq_some hunknown)
    have hnone := List.find?_some hunknown
    rw [← Column.label_of_check hc, Column.ofName?_label] at hnone
    exact absurd hnone (by simp)

/-- Checking puts columns in the place of their names. -/
theorem rename_check {p : Predicate String} {q : Predicate Column} (h : p.check = .ok q) : q.rename Column.label = p := by
  cases p
  case compareColumns name rel other =>
    obtain ⟨c, hc, h⟩ := bind_eq_ok h
    obtain ⟨d, hd, h⟩ := bind_eq_ok h
    obtain rfl := Except.ok.inj h
    rw [rename, Column.label_of_check hc, Column.label_of_check hd]
  all_goals
    obtain ⟨c, hc, h⟩ := bind_eq_ok h
    obtain rfl := Except.ok.inj h
    rw [rename, Column.label_of_check hc]

theorem map_rename_mapM_check {f : Filter} {ps : List (Predicate Column)} (h : f.mapM check = .ok ps) :
    ps.map (rename Column.label) = f := by
  induction f generalizing ps with
  | nil =>
    obtain rfl := Except.ok.inj h
    rfl
  | cons p rest ih =>
    rw [List.mapM_cons] at h
    obtain ⟨q, hq, h⟩ := bind_eq_ok h
    obtain ⟨qs, hqs, h⟩ := bind_eq_ok h
    obtain rfl := Except.ok.inj h
    rw [List.map_cons, rename_check hq, ih hqs]

end Predicate
end EquityScreen
