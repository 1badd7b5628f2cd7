import Mathlib.Data.List.Basic
import EquityScreen.Proofs.Lemmas.Conditions
import EquityScreen.Proofs.Lemmas.Maps
import EquityScreen.Screening.Plan
import EquityScreen.Store.Pushdown

/-!
# Names of fields, of columns and of the registry

A canonical name is its own canonical name and never an old one, so a normalized comparison is normalized for good
(`Leaf.normalize_normalize`). Every stored field of the catalog is a column of the table, holds numbers when its column does,
and has the operators of its kind (`column_of_storedField`).
-/

namespace EquityScreen

/-! ## Canonical names -/

/-- A name stays, or it is an old name and becomes the one it stands for. -/
theorem canonicalName_cases (name : String) :
    canonicalName name = name ∧ name ∉ oldNames.map (·.1) ∨ ∃ e ∈ oldNames, e.1 = name ∧ canonicalName name = e.2 := by
  unfold canonicalName
  cases hfind : oldNames.find? (·.1 == name) with
  | none =>
    refine .inl ⟨rfl, ?_⟩
    intro hmem
    obtain ⟨e, he, hname⟩ := List.mem_map.1 hmem
    exact List.find?_eq_none.1 hfind e he (beq_iff_eq.2 hname)
  | some e =>
    have hname : e.1 = name := by simpa using List.find?_some hfind
    exact .inr ⟨e, List.mem_of_find?_eq_some hfind, hname, rfl⟩

/-- A canonical name is its own canonical name. -/
@[simp] theorem canonicalName_canonicalName (name : String) : canonicalName (canonicalName name) = canonicalName name := by
  rcases canonicalName_cases name with ⟨h, -⟩ | ⟨e, he, -, h⟩
  · rw [h, h]
  · have hnew : ∀ e ∈ oldNames, canonicalName e.2 = e.2 := by decide
    rw [h, hnew e he]

/-- No canonical name is the old name whose numbers count ten thousands. -/
theorem canonicalName_ne_marketCap (name : String) : canonicalName name ≠ "market_cap" := by
  rcases canonicalName_cases name with ⟨h, hold⟩ | ⟨e, he, -, h⟩
  · rw [h]
    rintro rfl
    exact hold (by decide)
  · have hnew : ∀ e ∈ oldNames, e.2 ≠ "market_cap" := by decide
    rw [h]
    exact hnew e he

/-- A comparison is normalized once. -/
@[simp] theorem Leaf.normalize_normalize (l : Leaf) : l.normalize.normalize = l.normalize := by
  obtain ⟨field, op, right⟩ := l
  simp only [Leaf.normalize, canonicalName_canonicalName]
  cases right with
  | literal v => simp only [Operand.normalize, normalizeLiteral, if_neg (canonicalName_ne_marketCap field)]
  | field name => simp only [Operand.normalize, canonicalName_canonicalName]

/-- The comparisons of a normalized tree are normalized. -/
theorem normalize_of_mem_leaves {c : Condition} {l : Leaf} (h : l ∈ c.normalize.leaves) : l.normalize = l := by
  rw [Condition.normalize, Condition.leaves_mapLeaves] at h
  obtain ⟨l', -, rfl⟩ := List.mem_map.1 h
  exact Leaf.normalize_normalize l'

/-- A sort key is normalized once. -/
@[simp] theorem SortKey.normalize_normalize (k : SortKey) : k.normalize.normalize = k.normalize := by
  simp only [SortKey.normalize, canonicalName_canonicalName]

/-- A tree is normalized once. -/
@[simp] theorem Condition.normalize_normalize (c : Condition) : c.normalize.normalize = c.normalize := by
  rw [normalize, normalize, mapLeaves_mapLeaves]
  exact congrArg c.mapLeaves (funext Leaf.normalize_normalize)

/-- Sort keys are normalized once. -/
theorem normalize_keys (keys : List SortKey) :
    (keys.map SortKey.normalize).map SortKey.normalize = keys.map SortKey.normalize := by
  rw [List.map_map]
  exact List.map_congr_left fun k _ => k.normalize_normalize

/-! ## Names in order -/

namespace Text

theorem mem_insertName {name n : String} {names : List String} : n ∈ insertName name names ↔ n = name ∨ n ∈ names := by
  induction names with
  | nil => rw [insertName, List.mem_singleton]; simp
  | cons first rest ih =>
    rw [insertName]
    by_cases hlt : name < first
    · rw [if_pos hlt, List.mem_cons]
    · rw [if_neg hlt]
      by_cases heq : name = first
      · rw [if_pos heq, List.mem_cons, heq]
        exact ⟨.inr, fun h => h.elim .inl id⟩
      · rw [if_neg heq, List.mem_cons, ih, List.mem_cons]
        exact or_left_comm

/-- The names in order are the names. -/
theorem mem_sortNames {name : String} {names : List String} : name ∈ sortNames names ↔ name ∈ names := by
  have hfold : ∀ sorted : List String,
      name ∈ names.foldl (fun sorted name => insertName name sorted) sorted ↔ name ∈ names ∨ name ∈ sorted := by
    induction names with
    | nil => simp
    | cons n rest ih =>
      intro sorted
      rw [List.foldl_cons, ih, mem_insertName, List.mem_cons, or_left_comm, or_assoc]
  simpa [sortNames] using hfold []

/-- A name put in its place leaves the names in increasing order. -/
theorem pairwise_insertName {name : String} {names : List String} (h : names.Pairwise (· < ·)) :
    (insertName name names).Pairwise (· < ·) := by
  induction names with
  | nil => exact List.pairwise_singleton _ _
  | cons first rest ih =>
    obtain ⟨hfirst, hrest⟩ := List.pairwise_cons.1 h
    rw [insertName]
    by_cases hlt : name < first
    · rw [if_pos hlt]
      refine List.pairwise_cons.2 ⟨fun n hn => ?_, h⟩
      rcases List.mem_cons.1 hn with rfl | hn
      · exact hlt
      · exact String.lt_trans hlt (hfirst n hn)
    · rw [if_neg hlt]
      by_cases heq : name = first
      · rwa [if_pos heq]
      · rw [if_neg heq]
        refine List.pairwise_cons.2 ⟨fun n hn => ?_, ih hrest⟩
        rcases mem_insertName.1 hn with rfl | hn
        · exact String.not_le.1 fun hle => heq (String.le_antisymm hle (String.not_lt.1 hlt))
        · exact hfirst n hn

/-- The names in order increase, so none is there twice. -/
theorem pairwise_sortNames (names : List String) : (sortNames names).Pairwise (· < ·) := by
  have hfold : ∀ sorted : List String, sorted.Pairwise (· < ·) →
      (names.foldl (fun sorted name => insertName name sorted) sorted).Pairwise (· < ·) := by
    induction names with
    | nil => exact fun _ h => h
    | cons n rest ih => exact fun sorted h => ih (insertName n sorted) (pairwise_insertName h)
  exact hfold [] .nil

end Text

/-- The fields of a tree are those its comparisons name. -/
theorem Condition.mem_fields {c : Condition} {name : String} : name ∈ c.fields ↔ ∃ l ∈ c.leaves, name ∈ l.fields := by
  rw [Condition.fields, Text.mem_sortNames, List.mem_flatMap]

theorem mem_referencedFields {c : Condition} {keys : List SortKey} {name : String} :
    name ∈ referencedFields c keys ↔
      (∃ f ∈ c.fields, canonicalName f = name) ∨ ∃ k ∈ keys, canonicalName k.field = name := by
  simp only [referencedFields, Text.mem_sortNames, List.mem_map, List.mem_append, or_and_right, exists_or,
    exists_exists_and_eq_and]

/-- The fields that a condition and sort keys name, as they are spelled. -/
def Condition.namesWith (c : Condition) (keys : List SortKey) : List String :=
  c.leaves.flatMap Leaf.fields ++ keys.map (·.field)

theorem mem_referencedFields_iff {c : Condition} {keys : List SortKey} {name : String} :
    name ∈ referencedFields c keys ↔ name ∈ (c.namesWith keys).map canonicalName := by
  simp only [mem_referencedFields, Condition.mem_fields, Condition.namesWith, List.mem_map, List.mem_append, List.mem_flatMap,
    or_and_right, exists_or, exists_exists_and_eq_and]

/-! ## The registry -/

namespace Registry

/-- What a name resolves to is a field of the registry that has its canonical name. -/
theorem mem_of_resolve? {r : Registry} {name : String} {d : Descriptor} (h : r.resolve? name = some d) :
    d ∈ r.fields ∧ d.name = canonicalName name := by
  have hname : d.name = canonicalName name := by simpa using List.find?_some h
  exact ⟨List.mem_reverse.1 (List.mem_of_find?_eq_some h), hname⟩

@[simp] theorem resolve?_canonicalName (r : Registry) (name : String) : r.resolve? (canonicalName name) = r.resolve? name := by
  rw [resolve?, canonicalName_canonicalName, resolve?]

/-- A stored name resolves to a field that is not technical. -/
theorem isStored_iff {r : Registry} {name : String} :
    r.isStored name = true ↔ ∃ d, r.resolve? name = some d ∧ d.category ≠ .technical := by
  unfold isStored categoryOf?
  cases hd : r.resolve? name with
  | none => simp
  | some d => cases hc : d.category <;> simp [hc]

/-- A stored field is found by its name. -/
theorem storedField_eq_ok {r : Registry} {name : String} {d : Descriptor} (hd : r.resolve? name = some d)
    (hc : d.category ≠ .technical) : r.storedField name = .ok d := by
  have hne : (d.category == .technical) = false := beq_eq_false_iff_ne.2 hc
  simp only [storedField, hd, orError, bind, Except.bind, hne, Bool.false_eq_true, if_false]
  rfl

/-- A name is stored when its canonical name is. -/
theorem isStored_canonicalName (name : String) :
    builtin.isStored (canonicalName name) = builtin.isStored name := by
  rw [isStored, categoryOf?, resolve?_canonicalName]
  rfl

/-- A stored name is not technical. -/
theorem not_isTechnical_of_isStored {name : String} (h : builtin.isStored name = true) :
    builtin.isTechnical name = false := by
  obtain ⟨d, hd, hc⟩ := isStored_iff.1 h
  rw [isTechnical, categoryOf?, hd]
  simpa using hc

/-- A request whose condition and sort keys are stored names stored fields only. -/
theorem all_isStored {c : Condition} {keys : List SortKey} (hc : ∀ name ∈ c.fields, builtin.isStored name = true)
    (hk : ∀ k ∈ keys, builtin.isStored k.field = true) :
    ∀ name ∈ referencedFields c keys, builtin.isStored name = true := by
  intro name hname
  rcases mem_referencedFields.1 hname with ⟨f, hf, rfl⟩ | ⟨k, hk', rfl⟩
  · rw [isStored_canonicalName]
    exact hc f hf
  · rw [isStored_canonicalName]
    exact hk k hk'

end Registry

/-! ## Columns -/

namespace Column

/-- A column is found by its name and by no other. -/
theorem label_of_ofName? {name : String} {c : Column} (h : ofName? name = some c) : c.label = name := by
  simpa using List.find?_some h

/-- Every column is found by its name. -/
theorem ofName?_label (c : Column) : ofName? c.label = some c := by
  cases c with
  | symbol => decide
  | text c => cases c <;> decide
  | number c => cases c <;> decide

/-- Every column is in the list of columns. -/
theorem mem_all (c : Column) : c ∈ all :=
  List.mem_of_find?_eq_some (ofName?_label c)

theorem check_of_ofName? {name : String} {c : Column} (h : ofName? name = some c) : Column.check name = .ok c := by
  rw [Column.check, h]

end Column

/-- The operators of a stored field by what it holds. -/
def Descriptor.storedOperators (d : Descriptor) : List Operator :=
  if d.isNumeric then Operator.numeric else Operator.textual

/-- Every stored field of the catalog is a column of the table that holds what the field holds. -/
theorem column_of_storedField {d : Descriptor} (hd : d ∈ Catalog.all) (hc : d.category ≠ .technical) :
    ∃ c, Column.ofName? d.name = some c ∧ c.isNumeric = d.isNumeric ∧ d.operators = d.storedOperators := by
  have hall : ∀ d ∈ Catalog.all, d.category ≠ .technical →
      (Column.ofName? d.name).map Column.isNumeric = some d.isNumeric ∧ d.operators = d.storedOperators := by
    decide
  obtain ⟨hcol, hops⟩ := hall d hd hc
  obtain ⟨c, hname, hnum⟩ := Option.map_eq_some_iff.1 hcol
  exact ⟨c, hname, hnum, hops⟩

end EquityScreen
