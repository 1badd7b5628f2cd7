import EquityScreen.Proofs.Lemmas.Patterns
import EquityScreen.Proofs.Lemmas.Records
import EquityScreen.Proofs.Lemmas.Selections

/-!
# A comparison as a predicate of the store

For a comparison that the registry accepts and whose fields are stored there is one predicate, which passes the check of its
columns and which a kept record satisfies when the comparison matches its snapshot (`Leaf.Pushable.carried`). What a
comparison asks of the two values it is given is proved first, for numbers and for texts; the rest is that both sides are
given the same values.
-/

namespace EquityScreen

/-! ## Comparing two values -/

namespace Comparison

/-- The value and the literal compare, and the answer is yes. -/
def holds (v : Value) (op : Operator) (l : Literal) : Bool :=
  match compare v op l with
  | .ok b => b
  | .error _ => false

/-- A number and what reads as a number can be related. -/
theorem numbers_of_asNumber {l : Literal} {y : Float} (hl : l.asNumber = some y) (related : Float → Float → Bool)
    (x : Float) : numbers related (.number x) l = .ok (related x y) := by
  have hright : rightNumber l = .ok y := by rw [rightNumber, hl]
  rw [numbers, hright]
  rfl

/-- A number equals what reads as an equal number. -/
theorem equal_of_asNumber {l : Literal} {y : Float} (hl : l.asNumber = some y) (x : Float) :
    equal (.number x) l = .ok (x == y) := by
  cases l with
  | list items => exact absurd hl (by simp [Literal.asNumber])
  | number z => exact numbers_of_asNumber hl _ x
  | text t => exact numbers_of_asNumber hl _ x

/-- A number compared with what reads as a number. -/
theorem holds_number {op : Operator} {rel : Relation} (hrel : Relation.ofOperator? op = some rel) {x y : Float} {l : Literal}
    (hl : l.asNumber = some y) : holds (.number x) op l = rel.numbers x y := by
  unfold holds
  cases op <;> simp only [Relation.ofOperator?, Option.some.injEq, reduceCtorEq] at hrel <;> subst hrel
  all_goals simp only [compare, numbers_of_asNumber hl, equal_of_asNumber hl, Relation.numbers]
  rfl

/-- A text compared with a text for equality. -/
theorem holds_text {op : Operator} {rel : Relation} (hop : op ∈ Operator.textual)
    (hrel : Relation.ofOperator? op = some rel) (s t : String) : holds (.text s) op (.text t) = rel.texts s t := by
  unfold holds
  cases op <;> simp only [Relation.ofOperator?, Option.some.injEq, reduceCtorEq] at hrel <;> subst hrel
  case eq => rfl
  case ne => rfl
  all_goals exact absurd hop (by decide)

end Comparison

namespace Context

/-- A comparison that is no crossing matches when both of its sides are there and compare. -/
theorem matchesLeaf_eq (ctx : Context) {l : Leaf} (h : l.op.isCross = false) :
    ctx.matchesLeaf l =
      match ctx.present? l.field, ctx.operand? l.right with
      | some left, some right => Comparison.holds left l.op right
      | _, _ => false := by
  rw [matchesLeaf, h, compareLeaf]
  cases ctx.present? l.field with
  | none => rfl
  | some left => cases ctx.operand? l.right <;> rfl

end Context

/-- What is present of a field in the snapshot of a kept record is what its column holds. -/
theorem Record.present?_snapshot {r : Record} (h : r.Kept) {name : String} {c : Column} (hc : Column.ofName? name = some c) :
    (Context.snapshot r.snapshot).present? name = r.cell? c := by
  rw [Context.present?, Context.current?, r.get?_snapshot_of_kept h, hc, Option.bind_some]
  cases hv : r.cell? c with
  | none => rfl
  | some v => simp [r.isMissing_of_kept h hv]

/-! ## Comparisons that can be left to the store -/

/-- The numbers that a literal of a field of numbers stands for: its own, or those of its items. -/
def Literal.figures : Literal → List Float
  | .list items => items.filterMap Literal.asNumber
  | l => l.asNumber.toList

/-- No literal given for a field of numbers reads as the mark of a missing number. -/
def Leaf.HasNumbers (l : Leaf) : Prop :=
  ∀ d v, Registry.builtin.resolve? l.field = some d → d.isNumeric = true → l.right = .literal v →
    ∀ x ∈ v.figures, x.isNaN = false

/-- A comparison that can be left to the store. -/
structure Leaf.Pushable (l : Leaf) : Prop where
  normal : l.normalize = l
  accepted : Registry.builtin.leafReason? l = none
  stored : ∀ name ∈ l.fields, Registry.builtin.isStored name = true
  hasNumbers : l.HasNumbers

/-- The texts that a search of the comparison reads in the record have no NUL, and the store tells their characters apart. -/
def Leaf.Legible (l : Leaf) (r : Record) : Prop :=
  ∀ needle, l.op = .contains → l.right = .literal (.text needle) → HasNoNul needle ∧
    ∀ c s, Column.ofName? l.field = some c → r.cell? c = some (.text s) → HasNoNul s ∧ ToldApart needle s

/-- The field and the column of a stored name. -/
structure StoredField (name : String) where
  field : Descriptor
  column : Column
  resolved : Registry.builtin.resolve? name = some field
  stored : Registry.builtin.storedField name = .ok field
  checked : Column.check field.name = .ok column
  named : Column.ofName? name = some column
  numeric : column.isNumeric = field.isNumeric
  operators : field.operators = field.storedOperators

/-- A stored canonical name has a field and a column. -/
theorem exists_storedField {name : String} (hn : canonicalName name = name) (h : Registry.builtin.isStored name = true) :
    Nonempty (StoredField name) := by
  obtain ⟨d, hd, hc⟩ := Registry.isStored_iff.1 h
  obtain ⟨hmem, hname⟩ := Registry.mem_of_resolve? hd
  obtain ⟨c, hcol, hnum, hops⟩ := column_of_storedField hmem hc
  rw [hn] at hname
  exact ⟨⟨d, c, hd, Registry.storedField_eq_ok hd hc, Column.check_of_ofName? hcol, hname ▸ hcol, hnum, hops⟩⟩

/-! ## A value bound against a column -/

namespace Record

variable {r : Record} {c : Column}

theorem related_number {x y : Float} (hc : c.isNumeric = true) (hx : r.cell? c = some (.number x)) (hy : y.isNaN = false)
    (rel : Relation) : r.related c rel (.number y) = rel.numbers x y := by
  have hthere : (Value.number y).isMissing = false := hy
  simp [related, hx, Column.bound?, hthere, hc, StoredValue.numeric, StoredValue.ofValue, Relation.holds]

theorem related_text {s t : String} (hc : c.isNumeric = false) (hs : r.cell? c = some (.text s)) (rel : Relation) :
    r.related c rel (.text t) = rel.texts s t := by
  simp [related, hs, Column.bound?, Value.isMissing, hc, StoredValue.textual, Value.storeText, StoredValue.ofValue, Relation.holds]

theorem related_none (h : r.cell? c = none) (rel : Relation) (v : Value) : r.related c rel v = false := by
  rw [related, h]

/-- The mark of a missing number is bound as nothing, to which no column is related. -/
theorem related_of_isNaN (r : Record) (c : Column) (rel : Relation) {x : Float} (h : x.isNaN = true) :
    r.related c rel (.number x) = false := by
  have hbound : c.bound? (.number x) = none := if_pos h
  rw [related, hbound]
  cases r.cell? c <;> rfl

end Record

/-- The bounds of a range are the numbers that two literals read as. -/
theorem bounds_of_asBounds {v : Literal} {low high : Float} (h : v.asBounds = some (low, high)) :
    ∃ a b, v = .list [a, b] ∧ a.asNumber = some low ∧ b.asNumber = some high := by
  match v, h with
  | .list [a, b], h =>
    obtain ⟨x, hx, y, hy, heq⟩ : ∃ x, a.asNumber = some x ∧ ∃ y, b.asNumber = some y ∧ some (x, y) = some (low, high) := by
      simpa [Literal.asBounds, Option.bind_eq_some_iff] using h
    obtain ⟨rfl, rfl⟩ := Prod.mk.inj (Option.some.inj heq)
    exact ⟨a, b, rfl, hx, hy⟩

/-! ## One predicate for each comparison -/

/-- The comparison is one predicate of the store, and the store and the evaluation of a snapshot agree on it. -/
def Leaf.Carried (l : Leaf) : Prop :=
  ∃ p q, Registry.builtin.predicate l = .ok p ∧ p.check = .ok q ∧
    ∀ r : Record, r.Kept → l.Legible r → r.satisfies q = (Context.snapshot r.snapshot).matchesLeaf l

/-- A comparison with a literal is made into what the literal is made into. -/
theorem predicate_literal {l : Leaf} {v : Literal} (F : StoredField l.field) (hright : l.right = .literal v) :
    Registry.builtin.predicate l = Registry.literalPredicate F.field l.field l.op v := by
  rw [Registry.predicate, F.stored, hright]
  rfl

/-- A comparison with a literal matches the snapshot of a kept record when the column has a value, and that compares. -/
theorem matchesLeaf_stored {l : Leaf} {v : Literal} (F : StoredField l.field) (hright : l.right = .literal v)
    (hcross : l.op.isCross = false) {r : Record} (hr : r.Kept) :
    (Context.snapshot r.snapshot).matchesLeaf l = (r.cell? F.column).any fun left => Comparison.holds left l.op v := by
  rw [Context.matchesLeaf_eq _ hcross, Record.present?_snapshot hr F.named, hright, Context.operand?]
  cases r.cell? F.column <;> rfl

/-- A literal that is bound as one value is compared as that value. -/
theorem literalPredicate_compare {d : Descriptor} {field : String} {op : Operator} {v : Literal} {rel : Relation} {w : Value}
    (hrel : Relation.ofOperator? op = some rel) (hv : d.bindable? v = some w) :
    Registry.literalPredicate d field op v = .ok (.compare d.name rel w) := by
  cases op <;> simp only [Relation.ofOperator?, Option.some.injEq, reduceCtorEq] at hrel <;> subst hrel
  all_goals
    simp only [Registry.literalPredicate, Relation.ofOperator?, hv, orError]
    rfl

/-- The operators of a stored number are the relations and `between`. -/
theorem relation_of_numeric {op : Operator} (h : op ∈ Operator.numeric) :
    op.isCross = false ∧ (op = .between ∨ ∃ rel, Relation.ofOperator? op = some rel) := by
  cases op <;> first | exact absurd h (by decide) | exact ⟨rfl, .inl rfl⟩ | exact ⟨rfl, .inr ⟨_, rfl⟩⟩

namespace Leaf

variable {l : Leaf} {v : Literal}

/-- What a literal of a field of numbers binds is what it reads as. -/
theorem bindable_of_number {d : Descriptor} (hd : d.isNumeric = true) {y : Float} (hy : v.asNumber = some y) :
    d.bindable? v = some (.number y) := by
  cases v with
  | list items => exact absurd hy (by simp [Literal.asNumber])
  | number x =>
    obtain rfl := Option.some.inj hy
    rw [Descriptor.bindable?, if_pos hd]
  | text s =>
    have hread : Decimal.read s = some y := hy
    rw [Descriptor.bindable?, if_pos hd, hread]
    rfl

/-- A number is compared with a literal. -/
theorem carried_number (F : StoredField l.field) (hright : l.right = .literal v) (hd : F.field.isNumeric = true)
    {rel : Relation} (hrel : Relation.ofOperator? l.op = some rel) (hcross : l.op.isCross = false) {y : Float}
    (hy : v.asNumber = some y) (hnan : y.isNaN = false) : l.Carried := by
  refine ⟨.compare F.field.name rel (.number y), .compare F.column rel (.number y), ?_, ?_, ?_⟩
  · rw [predicate_literal F hright, literalPredicate_compare hrel (bindable_of_number hd hy)]
  · rw [Predicate.check, F.checked]
    rfl
  · intro r hr _
    rw [matchesLeaf_stored F hright hcross hr]
    cases hx : r.cell? F.column with
    | none => exact Record.related_none hx rel _
    | some w =>
      obtain ⟨x, rfl⟩ := Record.cell?_number (F.numeric.trans hd) hx
      exact (Record.related_number (F.numeric.trans hd) hx hnan rel).trans (Comparison.holds_number hrel hy).symm

/-- A number is tested for a range. -/
theorem carried_between (F : StoredField l.field) (hright : l.right = .literal v) (hd : F.field.isNumeric = true)
    (hop : l.op = .between) {low high : Float} (hv : v.asBounds = some (low, high)) (hlow : low.isNaN = false)
    (hhigh : high.isNaN = false) : l.Carried := by
  refine ⟨.range F.field.name low high, .range F.column low high, ?_, ?_, ?_⟩
  · rw [predicate_literal F hright, hop, Registry.literalPredicate, hv]
    rfl
  · rw [Predicate.check, F.checked]
    rfl
  · intro r hr _
    have hcross : l.op.isCross = false := by rw [hop]; rfl
    rw [matchesLeaf_stored F hright hcross hr, Record.satisfies]
    cases hx : r.cell? F.column with
    | none => rw [Record.related_none hx, Record.related_none hx]; rfl
    | some w =>
      obtain ⟨x, rfl⟩ := Record.cell?_number (F.numeric.trans hd) hx
      rw [Record.related_number (F.numeric.trans hd) hx hlow, Record.related_number (F.numeric.trans hd) hx hhigh]
      simp only [Comparison.holds, hop, Comparison.compare, Comparison.between, hv]
      rfl

/-- A text is compared with a literal. -/
theorem carried_text (F : StoredField l.field) {t : String} (hright : l.right = .literal (.text t))
    (hd : F.field.isNumeric = false) {rel : Relation} (hrel : Relation.ofOperator? l.op = some rel)
    (hop : l.op ∈ Operator.textual) (hcross : l.op.isCross = false) : l.Carried := by
  have hbind : F.field.bindable? (.text t) = some (.text t) := by
    rw [Descriptor.bindable?, hd]
    rfl
  refine ⟨.compare F.field.name rel (.text t), .compare F.column rel (.text t), ?_, ?_, ?_⟩
  · rw [predicate_literal F hright, literalPredicate_compare hrel hbind]
  · rw [Predicate.check, F.checked]
    rfl
  · intro r hr _
    rw [matchesLeaf_stored F hright hcross hr]
    cases hx : r.cell? F.column with
    | none => exact Record.related_none hx rel _
    | some w =>
      obtain ⟨s, rfl⟩ := Record.cell?_text (F.numeric.trans hd) hx
      exact (Record.related_text (F.numeric.trans hd) hx rel).trans (Comparison.holds_text hop hrel s t).symm

/-- The texts of a list of literals that are all texts. -/
theorem exists_texts {d : Descriptor} (hd : d.isNumeric = false) {items : List Literal} (h : ∀ v ∈ items, d.fits v = true) :
    ∃ ts : List String, items = ts.map .text ∧ items.mapM d.bindable? = some (ts.map .text) := by
  induction items with
  | nil => exact ⟨[], rfl, rfl⟩
  | cons v rest ih =>
    obtain ⟨ts, hts, hbind⟩ := ih fun w hw => h w (List.mem_cons_of_mem _ hw)
    have hv := h v List.mem_cons_self
    cases v with
    | list items => exact absurd hv (by simp [Descriptor.fits])
    | number x => exact absurd hv (by simp [Descriptor.fits, hd])
    | text t =>
      refine ⟨t :: ts, by rw [hts, List.map_cons], ?_⟩
      rw [List.mapM_cons, hbind, Descriptor.bindable?, hd]
      rfl

/-- A text is among literals when it is among their texts. -/
theorem among_texts (s : String) (ts : List String) : Comparison.among (.text s) (ts.map .text) = ts.any (s == ·) := by
  rw [Comparison.among, List.any_map]
  rfl

/-- A text is looked up in a list of literals, or in what is outside of it. -/
theorem carried_list (F : StoredField l.field) {items : List Literal} (hright : l.right = .literal (.list items))
    (hd : F.field.isNumeric = false) (hop : l.op = .isIn ∨ l.op = .notIn) (hfits : ∀ v ∈ items, F.field.fits v = true) :
    l.Carried := by
  obtain ⟨ts, hitems, hbind⟩ := exists_texts hd hfits
  have hc : F.column.isNumeric = false := F.numeric.trans hd
  have hcross : l.op.isCross = false := by rcases hop with hop | hop <;> rw [hop] <;> rfl
  rcases hop with hop | hop
  · refine ⟨.among F.field.name (ts.map .text), .among F.column (ts.map .text), ?_, ?_, ?_⟩
    · rw [predicate_literal F hright, hop, Registry.literalPredicate, Literal.asList, Option.bind_some, hbind]
      rfl
    · rw [Predicate.check, F.checked]
      rfl
    · intro r hr _
      rw [matchesLeaf_stored F hright hcross hr, Record.satisfies, List.any_map]
      cases hx : r.cell? F.column with
      | none => simp [Record.related_none hx]
      | some w =>
        obtain ⟨s, rfl⟩ := Record.cell?_text hc hx
        simp only [Function.comp_def, Record.related_text hc hx]
        rw [hop, hitems]
        exact (among_texts s ts).symm
  · refine ⟨.outside F.field.name (ts.map .text), .outside F.column (ts.map .text), ?_, ?_, ?_⟩
    · rw [predicate_literal F hright, hop, Registry.literalPredicate, Literal.asList, Option.bind_some, hbind]
      rfl
    · rw [Predicate.check, F.checked]
      rfl
    · intro r hr _
      rw [matchesLeaf_stored F hright hcross hr, Record.satisfies, List.all_map]
      cases hx : r.cell? F.column with
      | none => rfl
      | some w =>
        obtain ⟨s, rfl⟩ := Record.cell?_text hc hx
        simp only [Function.comp_def, Record.related_text hc hx]
        rw [hop, hitems]
        show (ts.all fun t => !(s == t)) = !Comparison.among (.text s) (ts.map .text)
        rw [among_texts, List.not_any_eq_all_not]

/-- A text is searched for another. -/
theorem carried_contains (F : StoredField l.field) {needle : String} (hright : l.right = .literal (.text needle))
    (hd : F.field.isNumeric = false) (hop : l.op = .contains) : l.Carried := by
  refine ⟨.contains F.field.name needle, .contains F.column needle, ?_, ?_, ?_⟩
  · rw [predicate_literal F hright, hop, Registry.literalPredicate, Literal.asText]
    rfl
  · rw [Predicate.check, F.checked]
    rfl
  · intro r hr hread
    have hcross : l.op.isCross = false := by rw [hop]; rfl
    obtain ⟨hneedle, hcell⟩ := hread needle hop hright
    rw [matchesLeaf_stored F hright hcross hr, Record.satisfies]
    cases hx : r.cell? F.column with
    | none => rfl
    | some w =>
      obtain ⟨s, rfl⟩ := Record.cell?_text (F.numeric.trans hd) hx
      obtain ⟨hs, htold⟩ := hcell F.column s F.named hx
      have hholds : Comparison.holds (.text s) .contains (.text needle) = Text.holdsFolded s needle := by
        simp only [Comparison.holds, Comparison.compare, Comparison.contains, Value.asText, Literal.asText]
      rw [hop, Option.any_some, hholds]
      exact like_eq_holdsFolded hs hneedle htold

/-- A field is compared with another of its kind. -/
theorem carried_field (F : StoredField l.field) {other : String} (G : StoredField other) (hright : l.right = .field other)
    (hkind : F.field.isNumeric = G.field.isNumeric) {rel : Relation} (hrel : Relation.ofOperator? l.op = some rel)
    (hcross : l.op.isCross = false) (htext : F.field.isNumeric = false → l.op ∈ Operator.textual) : l.Carried := by
  refine ⟨.compareColumns F.field.name rel G.field.name, .compareColumns F.column rel G.column, ?_, ?_, ?_⟩
  · rw [Registry.predicate, F.stored, hright]
    simp only [bind, Except.bind, hrel, orError, G.stored]
    rfl
  · rw [Predicate.check, F.checked, G.checked]
    rfl
  · intro r hr _
    rw [Context.matchesLeaf_eq _ hcross, Record.present?_snapshot hr F.named, hright, Context.operand?,
      Record.present?_snapshot hr G.named, Record.satisfies]
    cases hx : r.cell? F.column with
    | none => simp [Record.cellBeside?, hx]
    | some v =>
      cases hy : r.cell? G.column with
      | none => simp [Record.cellBeside?, hx, hy]
      | some w =>
        simp only [Record.cellBeside?, hx, hy, F.numeric, G.numeric, ← hkind, Option.map_some]
        cases hd : F.field.isNumeric with
        | true =>
          obtain ⟨x, rfl⟩ := Record.cell?_number (F.numeric.trans hd) hx
          obtain ⟨y, rfl⟩ := Record.cell?_number (G.numeric.trans (hkind ▸ hd)) hy
          exact (Comparison.holds_number hrel (l := .number y) rfl).symm
        | false =>
          obtain ⟨s, rfl⟩ := Record.cell?_text (F.numeric.trans hd) hx
          obtain ⟨t, rfl⟩ := Record.cell?_text (G.numeric.trans (hkind ▸ hd)) hy
          exact (Comparison.holds_text (htext hd) hrel s t).symm

/-- An accepted comparison of a stored field has an operator of the field, and its right side fits. -/
theorem accepted_iff (F : StoredField l.field) : Registry.builtin.leafReason? l = none ↔
    l.op ∈ F.field.storedOperators ∧
      match l.right with
      | .literal v => F.field.literalReason? l.op v = none
      | .field other =>
        (Registry.builtin.resolve? other).any (·.kind == F.field.kind) = true ∧ l.op.takesList = false ∧ l.op ≠ .contains := by
  have hsupports : F.field.supports l.op = decide (l.op ∈ F.field.storedOperators) := by
    rw [Descriptor.supports, F.operators, List.contains_eq_mem]
  rw [Registry.leafReason?_eq_none_iff]
  cases l.right <;> simp [F.resolved, hsupports]

/-- The one reason why a literal of a field of numbers is bound: it reads as a number. -/
theorem asNumber_of_fits {d : Descriptor} (hd : d.isNumeric = true) (h : d.fits v = true) : ∃ y, v.asNumber = some y := by
  cases v with
  | list items => exact absurd h (by simp [Descriptor.fits])
  | number y => exact ⟨y, rfl⟩
  | text s =>
    rw [Descriptor.fits, hd] at h
    exact Option.isSome_iff_exists.1 (by simpa using h)

/-- An accepted literal of a field of numbers is carried over. -/
theorem carried_of_number (F : StoredField l.field) (hright : l.right = .literal v) (hd : F.field.isNumeric = true)
    (hop : l.op ∈ F.field.storedOperators) (hreason : F.field.literalReason? l.op v = none)
    (hfig : ∀ x ∈ v.figures, x.isNaN = false) : l.Carried := by
  rw [Descriptor.storedOperators, hd] at hop
  obtain ⟨hcross, hbetween | ⟨rel, hrel⟩⟩ := relation_of_numeric hop
  · rw [hbetween] at hreason
    cases hv : v.asBounds with
    | none => exact absurd hreason (by simp [Descriptor.literalReason?, hv])
    | some bounds =>
      obtain ⟨low, high⟩ := bounds
      obtain ⟨a, b, rfl, ha, hb⟩ := bounds_of_asBounds hv
      refine carried_between F hright hd hbetween hv (hfig low ?_) (hfig high ?_)
      · simp [Literal.figures, ha]
      · simp [Literal.figures, hb]
  · have hfits : F.field.fits v = true := by
      cases hop' : l.op <;> rw [hop'] at hrel hreason <;>
        simp only [Relation.ofOperator?, reduceCtorEq, Descriptor.literalReason?] at hrel hreason <;> simpa using hreason
    obtain ⟨y, hy⟩ := asNumber_of_fits hd hfits
    refine carried_number F hright hd hrel hcross hy (hfig y ?_)
    cases v with
    | list items => exact absurd hy (by simp [Literal.asNumber])
    | number x => simpa [Literal.figures] using hy
    | text s => simpa [Literal.figures] using hy

/-- A literal that fits a field of texts is a text. -/
theorem text_of_fits {d : Descriptor} (hd : d.isNumeric = false) (h : d.fits v = true) : ∃ t, v = .text t := by
  cases v with
  | list items => exact absurd h (by simp [Descriptor.fits])
  | number x => exact absurd h (by simp [Descriptor.fits, hd])
  | text t => exact ⟨t, rfl⟩

/-- The items of an accepted list all fit. -/
theorem fits_of_list {d : Descriptor} {op : Operator} (hop : op = .isIn ∨ op = .notIn) (h : d.literalReason? op v = none) :
    ∃ items, v = .list items ∧ ∀ w ∈ items, d.fits w = true := by
  cases v with
  | number x => rcases hop with rfl | rfl <;> exact absurd h (by simp [Descriptor.literalReason?, Literal.asList])
  | text t => rcases hop with rfl | rfl <;> exact absurd h (by simp [Descriptor.literalReason?, Literal.asList])
  | list items =>
    have hmisfit : (items.find? (!d.fits ·)).map (d.misfit op) = none := by rcases hop with rfl | rfl <;> exact h
    refine ⟨items, rfl, fun w hw => ?_⟩
    have hnone := Option.map_eq_none_iff.1 hmisfit
    simpa using List.find?_eq_none.1 hnone w hw

/-- An accepted literal of a field of texts is carried over. -/
theorem carried_of_text (F : StoredField l.field) (hright : l.right = .literal v) (hd : F.field.isNumeric = false)
    (hop : l.op ∈ F.field.storedOperators) (hreason : F.field.literalReason? l.op v = none) : l.Carried := by
  rw [Descriptor.storedOperators, hd] at hop
  have hequality : ∀ rel, Relation.ofOperator? l.op = some rel → l.op.isCross = false → F.field.fits v = true → l.Carried := by
    intro rel hrel hcross hfits
    obtain ⟨t, rfl⟩ := text_of_fits hd hfits
    exact carried_text F hright hd hrel hop hcross
  have hlist : l.op = .isIn ∨ l.op = .notIn → l.Carried := by
    intro hop
    obtain ⟨items, rfl, hfits⟩ := fits_of_list hop hreason
    exact carried_list F hright hd hop hfits
  cases hop' : l.op <;> rw [hop'] at hop
  case eq =>
    rw [hop'] at hreason hequality
    exact hequality .eq rfl rfl (by simpa [Descriptor.literalReason?] using hreason)
  case ne =>
    rw [hop'] at hreason hequality
    exact hequality .ne rfl rfl (by simpa [Descriptor.literalReason?] using hreason)
  case isIn => exact hlist (.inl hop')
  case notIn => exact hlist (.inr hop')
  case contains =>
    rw [hop'] at hreason
    cases v with
    | text needle => exact carried_contains F hright hd hop'
    | number x => exact absurd hreason (by simp [Descriptor.literalReason?, Literal.asText])
    | list items => exact absurd hreason (by simp [Descriptor.literalReason?, Literal.asText])
  all_goals exact absurd hop (by decide)

/-- An accepted comparison with another field is carried over. -/
theorem carried_of_field (F : StoredField l.field) {other : String} (G : StoredField other) (hright : l.right = .field other)
    (hop : l.op ∈ F.field.storedOperators) (hkind : G.field.kind = F.field.kind) (hlist : l.op.takesList = false)
    (hcontains : l.op ≠ .contains) : l.Carried := by
  have hnum : F.field.isNumeric = G.field.isNumeric := by rw [Descriptor.isNumeric, Descriptor.isNumeric, hkind]
  have hrel : l.op.isCross = false ∧ ∃ rel, Relation.ofOperator? l.op = some rel := by
    unfold Descriptor.storedOperators at hop
    cases hop' : l.op <;> rw [hop'] at hop hlist hcontains
    case crossUp => split at hop <;> exact absurd hop (by decide)
    case crossDown => split at hop <;> exact absurd hop (by decide)
    case contains => exact absurd rfl hcontains
    all_goals first | exact ⟨rfl, _, rfl⟩ | exact absurd hlist (by decide)
  obtain ⟨hcross, rel, hrel⟩ := hrel
  refine carried_field F G hright hnum hrel hcross fun hd => ?_
  rwa [Descriptor.storedOperators, hd] at hop

/-- A comparison that can be left to the store is carried over. -/
theorem Pushable.carried (h : l.Pushable) : l.Carried := by
  have hname : canonicalName l.field = l.field := congrArg Leaf.field h.normal
  obtain ⟨F⟩ := exists_storedField hname (h.stored l.field List.mem_cons_self)
  obtain ⟨hop, hfits⟩ := (accepted_iff F).1 h.accepted
  cases hright : l.right with
  | literal v =>
    rw [hright] at hfits
    cases hd : F.field.isNumeric with
    | true => exact carried_of_number F hright hd hop hfits (h.hasNumbers F.field v F.resolved hd hright)
    | false => exact carried_of_text F hright hd hop hfits
  | field other =>
    rw [hright] at hfits
    have hother : canonicalName other = other := by
      have hnormal : (Leaf.normalize l).right = l.right := congrArg Leaf.right h.normal
      rw [Leaf.normalize, hright] at hnormal
      exact Operand.field.inj hnormal
    have hmem : other ∈ l.fields := by simp [Leaf.fields, Leaf.rightField, hright]
    obtain ⟨G⟩ := exists_storedField hother (h.stored other hmem)
    obtain ⟨hkind, hlist, hcontains⟩ := hfits
    rw [G.resolved] at hkind
    exact carried_of_field F G hright hop (by simpa using hkind) hlist hcontains

end Leaf

/-! ## One filter for a list of comparisons -/

/-- Comparisons that are carried over make a filter, which passes its check and which a kept record satisfies when all of them
match its snapshot. -/
theorem exists_filter {ls : List Leaf} (hnormal : ∀ l ∈ ls, l.normalize = l) (hcarried : ∀ l ∈ ls, l.Carried) :
    ∃ f ps, Registry.builtin.filterOf ls = .ok f ∧ f.mapM Predicate.check = .ok ps ∧
      ∀ r : Record, r.Kept → (∀ l ∈ ls, l.Legible r) →
        ps.all r.satisfies = ls.all (Context.snapshot r.snapshot).matchesLeaf := by
  induction ls with
  | nil => exact ⟨[], [], rfl, rfl, fun _ _ _ => rfl⟩
  | cons l rest ih =>
    obtain ⟨f, ps, hf, hps, hagree⟩ := ih (fun k hk => hnormal k (List.mem_cons_of_mem _ hk))
      (fun k hk => hcarried k (List.mem_cons_of_mem _ hk))
    obtain ⟨p, q, hp, hq, hl⟩ := hcarried l List.mem_cons_self
    refine ⟨p :: f, q :: ps, ?_, ?_, ?_⟩
    · rw [Registry.filterOf] at hf ⊢
      rw [List.mapM_cons, hnormal l List.mem_cons_self, hp, hf]
      rfl
    · rw [List.mapM_cons, hq, hps]
      rfl
    · intro r hr hread
      rw [List.all_cons, List.all_cons, hl r hr (hread l List.mem_cons_self),
        hagree r hr fun k hk => hread k (List.mem_cons_of_mem _ hk)]

end EquityScreen
