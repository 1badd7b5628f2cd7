import EquityScreen.Proofs.Lemmas.Contexts
import EquityScreen.Proofs.Lemmas.Literals
import EquityScreen.Proofs.Lemmas.Predicates

/-!
# Literals that read as the mark of a missing number

A literal such as `"nan"` reads as a number that is none. A field of numbers accepts it. The store binds it as nothing, and so
no record is ever found by it. The evaluation compares the numbers, and no number is above, below or equal to the mark of a
missing one; but `!=` is the denial of equality, and it matches every number. A field of texts compares the literal as the text
it is (`missing_literal_iff`).
-/

namespace EquityScreen

/-- The comparison is with a literal that reads as the mark of a missing number, or with a range one bound of which does. -/
inductive Leaf.HasMissing : Leaf → Prop where
  | scalar (field : String) (op : Operator) {v : Literal} (h : v.ReadsMissing) : HasMissing ⟨field, op, .literal v⟩
  | bound (field : String) {low high : Literal} (h : low.ReadsMissing ∨ high.ReadsMissing) :
    HasMissing ⟨field, .between, .literal (.list [low, high])⟩

/-- The value meets the comparison when its literal is no number: a number is different from it, and a text is compared with it
as a text. -/
def Leaf.MetBy (l : Leaf) : Value → Prop
  | .number _ => l.op = .ne
  | .text s => ∃ t, l.right = .literal (.text t) ∧
    (l.op = .eq ∧ s = t ∨ l.op = .ne ∧ s ≠ t ∨ l.op = .contains ∧ Text.holdsFolded s t = true)

/-- The mark of a missing number is not lost under the names of the registry. -/
theorem Leaf.HasMissing.normalize {l : Leaf} (h : l.HasMissing) : l.normalize.HasMissing := by
  cases h with
  | scalar field op h => exact .scalar _ _ (h.normalize field)
  | bound field h =>
    rw [Leaf.normalize_pair]
    exact .bound _ (h.imp (fun hlow => hlow.normalize field) fun hhigh => hhigh.normalize field)

/-- What meets a comparison meets it under the names of the registry. -/
theorem Leaf.metBy_normalize (l : Leaf) (v : Value) : l.normalize.MetBy v ↔ l.MetBy v := by
  cases v with
  | number x => rfl
  | text s =>
    have hright : ∀ t, l.normalize.right = .literal (.text t) ↔ l.right = .literal (.text t) := by
      intro t
      obtain ⟨field, op, right⟩ := l
      cases right with
      | field other => exact ⟨nofun, nofun⟩
      | literal v =>
        show Operand.literal (normalizeLiteral field v) = _ ↔ _
        rw [Operand.literal.injEq, Operand.literal.injEq]
        cases v with
        | number x => rw [normalizeLiteral_number]; exact ⟨nofun, nofun⟩
        | text s => rw [normalizeLiteral_text]
        | list items => unfold normalizeLiteral; split <;> exact ⟨nofun, nofun⟩
    simp only [MetBy, hright]
    rfl

/-! ## Comparing with the mark of a missing number -/

/-- Of the relations between a number and the mark of a missing one only `!=` holds. -/
theorem Relation.numbers_of_isNaN {x y : Float} (h : y.isNaN = true) (rel : Relation) :
    rel.numbers x y = decide (rel = .ne) := by
  have hbeq : (x == y) = false := beq_of_isNaN (.inr h)
  cases rel with
  | gt => exact decide_eq_false (not_lt_of_isNaN (.inl h))
  | lt => exact decide_eq_false (not_lt_of_isNaN (.inr h))
  | gte => exact decide_eq_false (not_le_of_isNaN (.inl h))
  | lte => exact decide_eq_false (not_le_of_isNaN (.inr h))
  | eq => exact hbeq
  | ne => rw [Relation.numbers, bne, hbeq]; rfl

namespace Comparison

variable {v : Literal}

/-- A literal that reads as a number is no range and no list. -/
theorem asList_of_asNumber {x : Float} (h : v.asNumber = some x) : v.asBounds = none ∧ v.asList = none := by
  cases v with
  | list items => exact absurd h (by simp [Literal.asNumber])
  | _ => exact ⟨rfl, rfl⟩

/-- A number compared with the mark of a missing one. -/
theorem holds_number_of_readsMissing (h : v.ReadsMissing) (x : Float) (op : Operator) :
    holds (.number x) op v = decide (op = .ne) := by
  obtain ⟨y, hy, hnan⟩ := h
  obtain ⟨hbounds, hlist⟩ := asList_of_asNumber hy
  cases hrel : Relation.ofOperator? op with
  | some rel =>
    rw [holds_number hrel hy, Relation.numbers_of_isNaN hnan]
    cases op <;> simp only [Relation.ofOperator?, Option.some.injEq, reduceCtorEq] at hrel <;> subst hrel <;> rfl
  | none =>
    unfold holds
    cases op <;> first | exact absurd hrel (by decide) | simp [compare, between, contains, Value.asText, hbounds, hlist]

/-- A text is not ordered with the mark of a missing number, not even where it reads as a number. -/
theorem holds_order_of_readsMissing (h : v.ReadsMissing) (s : String) {op : Operator}
    (hop : op = .gt ∨ op = .lt ∨ op = .gte ∨ op = .lte) : holds (.text s) op v = false := by
  obtain ⟨y, hy, hnan⟩ := h
  have hright : rightNumber v = .ok y := by rw [rightNumber, hy]
  have hnumbers : ∀ related : Float → Float → Bool, (∀ x, related x y = false) →
      numbers related (.text s) v ≠ .ok true := by
    intro related hrelated
    rw [numbers, hright]
    cases leftNumber (.text s) with
    | error e => exact fun heq => absurd heq (by simp [bind, Except.bind])
    | ok x => exact fun heq => absurd ((hrelated x).symm.trans (Except.ok.inj heq)) Bool.false_ne_true
  have hnot : compare (.text s) op v ≠ .ok true := by
    rcases hop with rfl | rfl | rfl | rfl
    · exact hnumbers _ fun x => decide_eq_false (not_lt_of_isNaN (.inl hnan))
    · exact hnumbers _ fun x => decide_eq_false (not_lt_of_isNaN (.inr hnan))
    · exact hnumbers _ fun x => decide_eq_false (not_le_of_isNaN (.inl hnan))
    · exact hnumbers _ fun x => decide_eq_false (not_le_of_isNaN (.inr hnan))
  unfold holds
  split
  · rename_i b hb
    exact Bool.eq_false_iff.2 fun hb' => hnot (hb.trans (congrArg _ hb'))
  · rfl

/-- A text is compared with a literal that reads as the mark of a missing number as with any text. -/
theorem holds_text_of_readsMissing (h : v.ReadsMissing) (s : String) (op : Operator) :
    holds (.text s) op v = true ↔ ∃ t, v = .text t ∧
      (op = .eq ∧ s = t ∨ op = .ne ∧ s ≠ t ∨ op = .contains ∧ Text.holdsFolded s t = true) := by
  cases hop : op
  case gt | lt | gte | lte => simp [holds_order_of_readsMissing h s]
  all_goals
    obtain ⟨y, hy, -⟩ := h
    obtain ⟨hbounds, hlist⟩ := asList_of_asNumber hy
    cases v with
    | list items => exact absurd hy (by simp [Literal.asNumber])
    | number z => simp [holds, compare, equal, between, contains, Except.map, hbounds, hlist, Literal.asText]
    | text t => simp [holds, compare, equal, between, contains, Except.map, hbounds, hlist, Value.asText, Literal.asText]

/-- One of the bounds of a range is the mark of a missing number if one of its literals reads as it. -/
theorem isNaN_of_readsMissing {low high : Literal} (h : low.ReadsMissing ∨ high.ReadsMissing) {x y : Float}
    (hv : (Literal.list [low, high]).asBounds = some (x, y)) : x.isNaN = true ∨ y.isNaN = true := by
  obtain ⟨a, b, hitems, hx, hy⟩ := bounds_of_asBounds hv
  obtain ⟨rfl, rfl⟩ : low = a ∧ high = b := by simpa using hitems
  refine h.imp ?_ ?_
  · rintro ⟨x', hx', hnan⟩
    rwa [Option.some.inj (hx.symm.trans hx')]
  · rintro ⟨y', hy', hnan⟩
    rwa [Option.some.inj (hy.symm.trans hy')]

/-- Nothing is in a range one bound of which is the mark of a missing number. -/
theorem holds_between_of_readsMissing {low high : Literal} (h : low.ReadsMissing ∨ high.ReadsMissing) (w : Value) :
    holds w .between (.list [low, high]) = false := by
  unfold holds compare between
  dsimp only
  cases hv : (Literal.list [low, high]).asBounds with
  | none => rfl
  | some bounds =>
    obtain ⟨x, y⟩ := bounds
    dsimp only
    cases leftNumber w with
    | error e => rfl
    | ok z =>
      show (decide (x ≤ z) && decide (z ≤ y)) = false
      rcases isNaN_of_readsMissing h hv with hnan | hnan
      · rw [decide_eq_false (not_le_of_isNaN (.inl hnan)), Bool.false_and]
      · rw [decide_eq_false (not_le_of_isNaN (.inr hnan)), Bool.and_false]

end Comparison

/-! ## In every context -/

/-- The mark of a missing number is no line to cross. -/
theorem Context.crosses_of_readsMissing (ctx : Context) {l : Leaf} {v : Literal} (h : v.ReadsMissing)
    (hright : l.right = .literal v) : ctx.crosses l = false := by
  obtain ⟨x, hx, hnan⟩ := h
  refine ctx.crosses_of_line?_eq_none ?_
  rw [hright, Context.line?, hx, Option.filter_some, hnan]
  rfl

/-- A comparison with the mark of a missing number matches when its field is there and has a value that meets it. -/
theorem Context.matchesLeaf_of_hasMissing (ctx : Context) {l : Leaf} (h : l.HasMissing) :
    ctx.matchesLeaf l = true ↔ ∃ v, ctx.present? l.field = some v ∧ l.MetBy v := by
  have hcompared : l.op.isCross = false → ∀ v, l.right = .literal v →
      (∀ w, Comparison.holds w l.op v = true ↔ l.MetBy w) →
      (ctx.matchesLeaf l = true ↔ ∃ w, ctx.present? l.field = some w ∧ l.MetBy w) := by
    intro hcross v hright hholds
    rw [ctx.matchesLeaf_eq hcross, hright, Context.operand?]
    cases ctx.present? l.field with
    | none => simp
    | some w => simp [hholds]
  cases h with
  | @scalar field op v h =>
    cases hcross : op.isCross with
    | true =>
      have hnot : ∀ w, ¬Leaf.MetBy ⟨field, op, .literal v⟩ w := by
        intro w
        cases op <;> first | exact absurd hcross (by decide) | cases w <;> simp [Leaf.MetBy]
      rw [Context.matchesLeaf, if_pos hcross, ctx.crosses_of_readsMissing h rfl]
      refine ⟨fun hfalse => absurd hfalse Bool.false_ne_true, ?_⟩
      rintro ⟨w, -, hmet⟩
      exact absurd hmet (hnot w)
    | false =>
      refine hcompared hcross v rfl fun w => ?_
      cases w with
      | number x => rw [Comparison.holds_number_of_readsMissing h, decide_eq_true_iff, Leaf.MetBy]
      | text s => simp only [Comparison.holds_text_of_readsMissing h, Leaf.MetBy, Operand.literal.injEq]
  | @bound field low high h =>
    refine hcompared rfl _ rfl fun w => ?_
    rw [Comparison.holds_between_of_readsMissing h]
    cases w <;> simp [Leaf.MetBy]

/-! ## In the store -/

namespace Leaf

variable {l : Leaf}

/-- The right side of a comparison with the mark of a missing number is a literal. -/
theorem HasMissing.exists_literal (h : l.HasMissing) : ∃ v, l.right = .literal v := by
  cases h <;> exact ⟨_, rfl⟩

/-- An accepted comparison of a stored field of numbers with the mark of a missing number is one predicate, which no record
satisfies. -/
theorem exists_predicate_of_hasMissing (h : l.HasMissing) (F : StoredField l.field) (hnum : F.field.isNumeric = true)
    (haccepted : Registry.builtin.leafReason? l = none) :
    ∃ p q, Registry.builtin.predicate l = .ok p ∧ p.check = .ok q ∧ ∀ r : Record, r.satisfies q = false := by
  obtain ⟨hop, hfits⟩ := (accepted_iff F).1 haccepted
  rw [Descriptor.storedOperators, hnum] at hop
  obtain ⟨-, hop⟩ := relation_of_numeric hop
  cases h with
  | @scalar field op v h =>
    obtain ⟨x, hx, hnan⟩ := h
    rcases hop with rfl | ⟨rel, hrel⟩
    · exact absurd hfits (by simp [Descriptor.literalReason?, (Comparison.asList_of_asNumber hx).1])
    · refine ⟨.compare F.field.name rel (.number x), .compare F.column rel (.number x), ?_, ?_, fun r => ?_⟩
      · rw [predicate_literal F rfl, literalPredicate_compare hrel (bindable_of_number hnum hx)]
      · rw [Predicate.check, F.checked]
        rfl
      · exact r.related_of_isNaN F.column rel hnan
  | @bound field low high h =>
    cases hv : (Literal.list [low, high]).asBounds with
    | none => exact absurd hfits (by simp [Descriptor.literalReason?, hv])
    | some bounds =>
      obtain ⟨x, y⟩ := bounds
      refine ⟨.range F.field.name x y, .range F.column x y, ?_, ?_, fun r => ?_⟩
      · rw [predicate_literal F rfl, Registry.literalPredicate, hv]
        rfl
      · rw [Predicate.check, F.checked]
        rfl
      · rcases Comparison.isNaN_of_readsMissing h hv with hnan | hnan
        · rw [Record.satisfies, r.related_of_isNaN F.column _ hnan, Bool.false_and]
        · rw [Record.satisfies, r.related_of_isNaN F.column .lte hnan, Bool.and_false]

/-- An accepted comparison of a stored field of texts is carried over to the store, whatever its text reads as. -/
theorem carried_of_hasMissing (h : l.HasMissing) (hnormal : l.normalize = l) (F : StoredField l.field)
    (hnum : F.field.isNumeric = false) (hstored : Registry.builtin.isStored l.field = true)
    (haccepted : Registry.builtin.leafReason? l = none) : l.Carried := by
  obtain ⟨v, hright⟩ := h.exists_literal
  refine Pushable.carried ⟨hnormal, haccepted, ?_, ?_⟩
  · intro name hname
    have hfields : l.fields = [l.field] := by rw [fields, rightField, hright]; rfl
    rw [hfields] at hname
    rwa [List.mem_singleton.1 hname]
  · intro d w hd hnumeric
    obtain rfl := Option.some.inj (F.resolved.symm.trans hd)
    exact absurd (hnum.symm.trans hnumeric) Bool.false_ne_true

end Leaf

/-! ## Both ways -/

/-- A comparison with a literal that reads as the mark of a missing number matches in a context when its field is there and is a
number compared by `!=`, or a text that the literal is compared with as a text. The predicate of an accepted one is satisfied
by no record if the field holds numbers. So the store and the evaluation of a snapshot agree on it unless a number is there to
be compared by `!=`. -/
theorem missing_literal_iff {l : Leaf} (h : l.HasMissing)
    (haccepted : Registry.builtin.issues (.leaf l.normalize) = []) :
    (∀ ctx : Context, ctx.satisfies (.leaf l.normalize) = true ↔
        ∃ v, ctx.present? (canonicalName l.field) = some v ∧ l.MetBy v) ∧
      (Registry.builtin.isStored l.field = true → ∃ d p q, Registry.builtin.resolve? l.field = some d ∧
        Registry.builtin.filterOf [l] = .ok [p] ∧ p.check = .ok q ∧
        (d.isNumeric = true → ∀ r : Record, r.satisfies q = false) ∧
        ∀ r : Record, r.Kept → l.normalize.Legible r →
          (r.satisfies q = (Context.snapshot r.snapshot).satisfies (.leaf l.normalize) ↔
            ¬(d.isNumeric = true ∧ l.op = .ne ∧
              ((Context.snapshot r.snapshot).present? (canonicalName l.field)).isSome = true))) := by
  have hmatches : ∀ ctx : Context, ctx.satisfies (.leaf l.normalize) = true ↔
      ∃ v, ctx.present? (canonicalName l.field) = some v ∧ l.MetBy v := by
    intro ctx
    have hiff := ctx.matchesLeaf_of_hasMissing h.normalize
    simp only [l.metBy_normalize] at hiff
    exact hiff
  refine ⟨hmatches, fun hstored => ?_⟩
  have hreason : Registry.builtin.leafReason? l.normalize = none :=
    (Registry.builtin.issues_eq_nil_iff _).1 haccepted _ (List.mem_singleton.2 rfl)
  have hcanonical : Registry.builtin.isStored l.normalize.field = true :=
    (Registry.isStored_canonicalName l.field).trans hstored
  obtain ⟨F⟩ := exists_storedField (canonicalName_canonicalName l.field) hcanonical
  have hd : Registry.builtin.resolve? l.field = some F.field :=
    (Registry.builtin.resolve?_canonicalName l.field).symm.trans F.resolved
  have hfilter : ∀ p, Registry.builtin.predicate l.normalize = .ok p → Registry.builtin.filterOf [l] = .ok [p] := by
    intro p hp
    rw [Registry.filterOf, List.mapM_cons, hp]
    rfl
  cases hnum : F.field.isNumeric with
  | false =>
    obtain ⟨p, q, hp, hq, hagree⟩ := Leaf.carried_of_hasMissing h.normalize l.normalize_normalize F hnum hcanonical hreason
    refine ⟨F.field, p, q, hd, hfilter p hp, hq, fun hyes => absurd (hnum.symm.trans hyes) Bool.false_ne_true, ?_⟩
    intro r hr hread
    rw [hagree r hr hread, hnum]
    simp [Context.satisfies]
  | true =>
    obtain ⟨p, q, hp, hq, hnever⟩ := Leaf.exists_predicate_of_hasMissing h.normalize F hnum hreason
    refine ⟨F.field, p, q, hd, hfilter p hp, hq, fun _ => hnever, ?_⟩
    intro r hr _
    rw [hnever, eq_comm, ← Bool.not_eq_true, hmatches, Record.present?_snapshot hr F.named, hnum]
    refine not_congr ?_
    constructor
    · rintro ⟨v, hv, hmet⟩
      obtain ⟨x, rfl⟩ := Record.cell?_number (F.numeric.trans hnum) hv
      exact ⟨rfl, hmet, by rw [hv]; rfl⟩
    · rintro ⟨-, hne, hsome⟩
      obtain ⟨v, hv⟩ := Option.isSome_iff_exists.1 hsome
      obtain ⟨x, rfl⟩ := Record.cell?_number (F.numeric.trans hnum) hv
      exact ⟨_, hv, hne⟩

theorem readsMissing_nan : Literal.ReadsMissing (.text "nan") :=
  Option.any_eq_true _ _ |>.1 (rfl : (Decimal.read "nan").any Float.isNaN = true)

/-- No price to earnings is in a range without an upper bound that is a number, neither to the evaluation nor to the store. -/
theorem nothing_between_five_and_nan :
    (∀ ctx : Context, ctx.satisfies (.leaf (Leaf.normalize
        ⟨"pe_ratio", .between, .literal (.list [.number 5.0, .text "nan"])⟩)) = false) ∧
      ∃ p q, Registry.builtin.filterOf [⟨"pe_ratio", .between, .literal (.list [.number 5.0, .text "nan"])⟩] = .ok [p] ∧
        p.check = .ok q ∧ ∀ r : Record, r.satisfies q = false := by
  have hmissing : Leaf.HasMissing ⟨"pe_ratio", .between, .literal (.list [.number 5.0, .text "nan"])⟩ :=
    .bound "pe_ratio" (.inr readsMissing_nan)
  obtain ⟨hmatches, hpushed⟩ := missing_literal_iff hmissing rfl
  obtain ⟨d, p, q, hd, hfilter, hcheck, hnever, -⟩ := hpushed rfl
  have hnumeric : (Registry.builtin.resolve? "pe_ratio").any Descriptor.isNumeric = true := rfl
  rw [hd] at hnumeric
  refine ⟨fun ctx => Bool.eq_false_iff.2 fun hsat => ?_, p, q, hfilter, hcheck, hnever hnumeric⟩
  obtain ⟨v, -, hmet⟩ := (hmatches ctx).1 hsat
  cases v with
  | number x => exact absurd (show Operator.between = .ne from hmet) (by decide)
  | text s =>
    obtain ⟨t, hright, -⟩ := hmet
    exact absurd hright nofun

/-- A stock that costs ten times its earnings. -/
def tenfold : Record := ⟨"A", fun _ => none, fun c => if c = .pe then some 10.0 else none⟩

/-- A price to earnings is different from the mark of a missing number to the evaluation, and is not to the store. -/
theorem differs_from_nan_when_evaluated :
    Leaf.HasMissing ⟨"pe", .ne, .literal (.text "nan")⟩ ∧
      Registry.builtin.issues (.leaf (Leaf.normalize ⟨"pe", .ne, .literal (.text "nan")⟩)) = [] ∧
      tenfold.stored.Kept ∧
      (Context.snapshot tenfold.stored.snapshot).satisfies (.leaf (Leaf.normalize ⟨"pe", .ne, .literal (.text "nan")⟩)) =
        true ∧
      ∃ p q, Registry.builtin.filterOf [⟨"pe", .ne, .literal (.text "nan")⟩] = .ok [p] ∧ p.check = .ok q ∧
        tenfold.stored.satisfies q = false := by
  refine ⟨.scalar _ _ readsMissing_nan, rfl, tenfold.kept_stored, rfl, ?_⟩
  exact ⟨.compare "pe" .ne (.number Float.nan), .compare (.number .pe) .ne (.number Float.nan), rfl, rfl, rfl⟩

end EquityScreen
