import EquityScreen.Proofs.Lemmas.Literals
import EquityScreen.Proofs.Lemmas.Predicates

/-!
# Numbers and the texts that read as them

A literal of a field of numbers may be given as a number or as a text that reads as the number. Validation takes the one for
the other without exception. The filter of the store and the evaluation do so too, except in two places: a number is no text
to search for, and normalizing a literal for `market_cap` divides its numbers and leaves its texts as they are, so that
there the two stand for the same only if the number is its own ten-thousandth (`alike_iff`).
-/

namespace EquityScreen

/-! ## Texts in place of numbers -/

namespace Literal

/-- The literal as it is, or a text in place of a number, which reads as some number. -/
inductive Spelled : Literal → Literal → Prop where
  | same (v : Literal) : Spelled v v
  | text (x : Float) {y : Float} {s : String} (h : Decimal.read s = some y) : Spelled (.number x) (.text s)

/-- The literal as it is, or a text in place of a number, which reads as that number. -/
def Respelled (v v' : Literal) : Prop := v.Spelled v' ∧ v'.asNumber = v.asNumber

/-- The number that has a text in its place. -/
def replaced? : Literal → Literal → Option Float
  | number x, text _ => some x
  | _, _ => none

/-- A text in place of a number reads as a number too. -/
theorem Spelled.isSome_asNumber {v v' : Literal} (h : v.Spelled v') : v'.asNumber.isSome = v.asNumber.isSome := by
  cases h with
  | same => rfl
  | @text x y s h =>
    have hread : (Literal.text s).asNumber = some y := h
    rw [hread]
    rfl

end Literal

namespace Leaf

/-- The comparison with its literal changed, or with the bounds of its range changed. -/
inductive Changed (R : Literal → Literal → Prop) : Leaf → Leaf → Prop where
  | scalar (field : String) (op : Operator) {v v' : Literal} (h : R v v') :
    Changed R ⟨field, op, .literal v⟩ ⟨field, op, .literal v'⟩
  | bounds (field : String) {low low' high high' : Literal} (hlow : R low low') (hhigh : R high high') :
    Changed R ⟨field, .between, .literal (.list [low, high])⟩ ⟨field, .between, .literal (.list [low', high'])⟩

/-- The comparison with some of its numbers, the literal itself or bounds of a range, as texts that read as them. -/
def Respelled : Leaf → Leaf → Prop := Changed Literal.Respelled

/-- The numbers that have a text in their place. -/
def replaced (l l' : Leaf) : List Float :=
  match l.right, l'.right with
  | .literal (.list [low, high]), .literal (.list [low', high']) =>
    (low.replaced? low').toList ++ (high.replaced? high').toList
  | .literal v, .literal v' => (v.replaced? v').toList
  | _, _ => []

end Leaf

/-- The operator compares with one number. -/
def Operator.comparesNumber : Operator → Bool
  | .gt | .lt | .gte | .lte | .eq | .ne | .crossUp | .crossDown => true
  | .between | .isIn | .notIn | .contains => false

/-- The comparison looks at the numbers of its literal. -/
def Leaf.readsNumbers (l : Leaf) : Bool :=
  match l.op, l.right with
  | .between, .literal v => v.asBounds.isSome
  | op, _ => op.comparesNumber

/-- What is there of a field of numbers is a number. -/
def Context.HoldsNumbers (ctx : Context) : Prop :=
  ∀ d ∈ Catalog.all, d.isNumeric = true → ∀ v, ctx.current? d.name = some v → ∃ x, v = .number x

/-- Validation, the store and every evaluation take the one comparison for the other. -/
structure Leaf.Alike (l l' : Leaf) : Prop where
  issues : Registry.builtin.issues (.leaf l'.normalize) = Registry.builtin.issues (.leaf l.normalize)
  filter : Registry.builtin.filterOf [l'] = Registry.builtin.filterOf [l]
  evaluation : ∀ ctx : Context, ctx.HoldsNumbers → ctx.satisfies (.leaf l'.normalize) = ctx.satisfies (.leaf l.normalize)

/-! ## A text for a number -/

section Text

variable {d : Descriptor} {op : Operator} {s : String} {x y : Float}

/-- A field of numbers has the same against the number and against the text. -/
theorem literalReason?_text (hd : d.isNumeric = true) (hs : Decimal.read s = some y) (hop : op ≠ .contains) :
    d.literalReason? op (.text s) = d.literalReason? op (.number x) := by
  have hfits : d.fits (.text s) = d.fits (.number x) := by
    rw [Descriptor.fits, Descriptor.fits, Literal.asNumber, hs, hd]
    rfl
  cases op
  case contains => exact absurd rfl hop
  case between => rfl
  case isIn => rfl
  case notIn => rfl
  all_goals
    simp only [Descriptor.literalReason?, hfits]
    rfl

/-- Where the text reads as the number, or one number is not looked at, both bind the same. -/
theorem literalPredicate_text (hd : d.isNumeric = true) (hs : Decimal.read s = some y) (hop : op ≠ .contains)
    (hy : op.comparesNumber = true → y = x) (field : String) :
    Registry.literalPredicate d field op (.text s) = Registry.literalPredicate d field op (.number x) := by
  have hbind : op.comparesNumber = true → d.bindable? (.text s) = d.bindable? (.number x) := by
    intro hcompares
    rw [Leaf.bindable_of_number hd (v := .text s) hs, Leaf.bindable_of_number hd (v := .number x) rfl, hy hcompares]
  cases op
  case contains => exact absurd rfl hop
  case between => rfl
  case isIn => rfl
  case notIn => rfl
  all_goals simp only [Registry.literalPredicate, hbind rfl]

/-- A number compares with both alike. -/
theorem holds_respelled (hs : Decimal.read s = some y) (hy : op.comparesNumber = true → y = x) (z : Float) :
    Comparison.holds (.number z) op (.text s) = Comparison.holds (.number z) op (.number x) := by
  cases hrel : Relation.ofOperator? op with
  | some rel =>
    have hcompares : op.comparesNumber = true := by
      cases op <;> first | rfl | exact absurd hrel (by simp [Relation.ofOperator?])
    rw [Comparison.holds_number hrel (l := .text s) hs, Comparison.holds_number hrel (l := .number x) rfl, hy hcompares]
  | none => cases op <;> first | exact absurd hrel (by decide) | rfl

end Text

/-! ## Predicates and evaluations of a literal -/

section Field

variable {field : String} {d : Descriptor} {op : Operator} {v v' : Literal}

/-- A comparison of a stored field makes the predicate of its literal. -/
theorem predicate_of_stored (hd : Registry.builtin.resolve? field = some d)
    (hstored : Registry.builtin.isStored field = true) :
    Registry.builtin.predicate ⟨field, op, .literal v⟩ = Registry.literalPredicate d field op v := by
  obtain ⟨d', hd', hc⟩ := Registry.isStored_iff.1 hstored
  obtain rfl := Option.some.inj (hd.symm.trans hd')
  rw [Registry.predicate, Registry.storedField_eq_ok hd hc]
  rfl

/-- A comparison of a field that is not stored makes no predicate, whatever its literal. -/
theorem predicate_of_not_stored (hd : Registry.builtin.resolve? field = some d)
    (hstored : Registry.builtin.isStored field = false) :
    Registry.builtin.predicate ⟨field, op, .literal v⟩ = .error (.notStored field) := by
  have hc : d.category = .technical := by
    by_contra hc
    rw [Registry.isStored_iff.2 ⟨d, hd, hc⟩] at hstored
    exact absurd hstored (by decide)
  have hfield : Registry.builtin.storedField field = .error (.notStored field) := by
    rw [Registry.storedField, hd, orError]
    simp only [bind, Except.bind, hc]
    rfl
  rw [Registry.predicate, hfield]
  rfl

/-- One comparison makes the filter of its predicate. -/
theorem filterOf_eq_iff {l l' : Leaf} : Registry.builtin.filterOf [l'] = Registry.builtin.filterOf [l] ↔
    Registry.builtin.predicate l'.normalize = Registry.builtin.predicate l.normalize := by
  have hone : ∀ l : Leaf, Registry.builtin.filterOf [l] = (Registry.builtin.predicate l.normalize).map fun p => [p] := by
    intro l
    rw [Registry.filterOf, List.mapM_cons]
    cases Registry.builtin.predicate l.normalize <;> rfl
  rw [hone, hone]
  cases Registry.builtin.predicate l'.normalize <;> cases Registry.builtin.predicate l.normalize <;> simp [Except.map]

/-- A comparison has no issue but the reason against it. -/
theorem issues_leaf_eq {l l' : Leaf} (hfield : l'.field = l.field)
    (h : Registry.builtin.leafReason? l' = Registry.builtin.leafReason? l) :
    Registry.builtin.issues (.leaf l') = Registry.builtin.issues (.leaf l) := by
  rw [Registry.issues, Registry.issues, Registry.issuesAt, Registry.issuesAt, h, hfield]

/-- What is there of a field of numbers is a number. -/
theorem exists_number {ctx : Context} (hctx : ctx.HoldsNumbers) (hd : Registry.builtin.resolve? field = some d)
    (hnum : d.isNumeric = true) (hname : canonicalName field = field) {w : Value} (hw : ctx.present? field = some w) :
    ∃ z, w = .number z := by
  obtain ⟨hmem, hdname⟩ := Registry.mem_of_resolve? hd
  refine hctx d hmem hnum w ?_
  rw [hdname, hname]
  exact (Option.filter_eq_some_iff.1 hw).1

/-- Literals that a number compares with alike, and that are one line to a crossing, are evaluated alike. -/
theorem matchesLeaf_eq_of_holds {ctx : Context} (hctx : ctx.HoldsNumbers) (hd : Registry.builtin.resolve? field = some d)
    (hnum : d.isNumeric = true) (hname : canonicalName field = field)
    (hholds : ∀ z, Comparison.holds (.number z) op v' = Comparison.holds (.number z) op v)
    (hline : op.isCross = true → v'.asNumber = v.asNumber) :
    ctx.matchesLeaf ⟨field, op, .literal v'⟩ = ctx.matchesLeaf ⟨field, op, .literal v⟩ := by
  cases hcross : op.isCross with
  | true =>
    have hlines : ∀ back, ctx.line? (.literal v') back = ctx.line? (.literal v) back := by
      intro back
      rw [Context.line?, Context.line?, hline hcross]
    simp only [Context.matchesLeaf, hcross, if_true, Context.crosses, Context.crossing?, hlines]
  | false =>
    rw [Context.matchesLeaf_eq ctx (l := ⟨field, op, .literal v'⟩) hcross,
      Context.matchesLeaf_eq ctx (l := ⟨field, op, .literal v⟩) hcross]
    cases hw : ctx.present? field with
    | none => rfl
    | some w =>
      obtain ⟨z, rfl⟩ := exists_number hctx hd hnum hname hw
      exact hholds z

end Field

/-! ## A scalar -/

/-- The field for which numbers count ten thousands is stored. -/
theorem isStored_marketCap : Registry.builtin.isStored (canonicalName "market_cap") = true := rfl

/-- No field of numbers is searched. -/
theorem not_supports_contains {field : String} {d : Descriptor} (hd : Registry.builtin.resolve? field = some d)
    (hnum : d.isNumeric = true) : d.supports .contains = false := by
  have hall : ∀ d ∈ Catalog.all, d.isNumeric = true → d.supports .contains = false := by decide
  exact hall d (Registry.mem_of_resolve? hd).1 hnum

section Scalar

variable {field : String} {d : Descriptor} {op : Operator} {x : Float} {s : String}

/-- There is the same against a comparison with a number and against the one with a text in its place. -/
theorem leafReason?_text (hd : Registry.builtin.resolve? field = some d) (hnum : d.isNumeric = true) {y : Float}
    (hs : Decimal.read s = some y) (z : Float) :
    Registry.builtin.leafReason? ⟨field, op, .literal (.text s)⟩ =
      Registry.builtin.leafReason? ⟨field, op, .literal (.number z)⟩ := by
  simp only [Registry.leafReason?, hd]
  by_cases hop : op = .contains
  · subst hop
    rw [not_supports_contains hd hnum]
    rfl
  · rw [literalReason?_text hnum hs hop]

/-- The relation of a stored comparison binds what its literal reads as, so that equal predicates have equal numbers. -/
theorem eq_of_predicate_eq (hd : Registry.builtin.resolve? field = some d) (hnum : d.isNumeric = true)
    (hstored : Registry.builtin.isStored field = true) {rel : Relation} (hrel : Relation.ofOperator? op = some rel)
    (hs : Decimal.read s = some x) {z : Float}
    (h : Registry.builtin.predicate ⟨field, op, .literal (.text s)⟩ =
      Registry.builtin.predicate ⟨field, op, .literal (.number z)⟩) : z = x := by
  have htext : d.bindable? (.text s) = some (.number x) := Leaf.bindable_of_number hnum hs
  have hnumber : d.bindable? (.number z) = some (.number z) := Leaf.bindable_of_number hnum rfl
  rw [predicate_of_stored hd hstored, predicate_of_stored hd hstored, literalPredicate_compare hrel htext,
    literalPredicate_compare hrel hnumber] at h
  obtain ⟨-, -, hvalue⟩ := Predicate.compare.inj (Except.ok.inj h)
  exact (Value.number.inj hvalue).symm

end Scalar

/-! ## Lines to cross -/

/-- Two days of one column. -/
def twoDays (before now : Float) : Context :=
  .series ⟨[⟨2024, 1, 2⟩, ⟨2024, 1, 3⟩], .ofList [("total_mv", [before, now])]⟩ none

theorem holdsNumbers_twoDays (before now : Float) : (twoDays before now).HoldsNumbers := by
  intro d hd hnum v hv
  unfold twoDays Context.current? at hv
  dsimp only at hv
  split at hv
  · obtain ⟨x, -, rfl⟩ := Option.map_eq_some_iff.1 hv
    exact ⟨x, rfl⟩
  · exact absurd hv (by simp)

/-- A crossing of a line over two days looks at each day once. -/
theorem matchesLeaf_twoDays {before now b : Float} (hbefore : before.isNaN = false) (hnow : now.isNaN = false)
    (hb : b.isNaN = false) {v : Literal} (hv : v.asNumber = some b) :
    (twoDays before now).matchesLeaf ⟨"total_mv", .crossUp, .literal v⟩ = (decide (before ≤ b) && decide (b < now)) ∧
      (twoDays before now).matchesLeaf ⟨"total_mv", .crossDown, .literal v⟩ = (decide (b ≤ before) && decide (now < b)) := by
  have hcolumn : (Named.ofList [("total_mv", [before, now])]).get? "total_mv" = some [before, now] := rfl
  have hpast1 : (twoDays before now).past? "total_mv" 1 = some before := by
    rw [twoDays, Context.past?, Series.fromEnd?, Series.column?, hcolumn]
    exact Option.filter_eq_some_iff.2 ⟨rfl, by rw [hbefore]; rfl⟩
  have hpast0 : (twoDays before now).past? "total_mv" 0 = some now := by
    rw [twoDays, Context.past?, Series.fromEnd?, Series.column?, hcolumn]
    exact Option.filter_eq_some_iff.2 ⟨rfl, by rw [hnow]; rfl⟩
  have hline : ∀ back, (twoDays before now).line? (.literal v) back = some b := by
    intro back
    rw [Context.line?, hv]
    exact Option.filter_eq_some_iff.2 ⟨rfl, by rw [hb]; rfl⟩
  have hcrossing : ∀ op, (twoDays before now).crossing? ⟨"total_mv", op, .literal v⟩ = some (before, b, now, b) := by
    intro op
    simp [Context.crossing?, hpast1, hpast0, hline]
  constructor
  · show (twoDays before now).crosses _ = _
    rw [twoDays, Context.crosses, ← twoDays, hcrossing]
  · show (twoDays before now).crosses _ = _
    rw [twoDays, Context.crosses, ← twoDays, hcrossing]

/-- Of two lines at different numbers there is a series that crosses the one and not the other. -/
theorem exists_crossing {op : Operator} (hop : op.isCross = true) {v w : Literal} {p q : Float} (hv : v.asNumber = some p)
    (hw : w.asNumber = some q) (hp : p.isNaN = false) (hq : q.isNaN = false) (hlt : p < q) :
    ∃ ctx : Context, ctx.HoldsNumbers ∧
      ctx.matchesLeaf ⟨"total_mv", op, .literal v⟩ ≠ ctx.matchesLeaf ⟨"total_mv", op, .literal w⟩ := by
  have hnot : ∀ r : Float, decide (r < r) = false := fun r => decide_eq_false not_lt_self
  cases op with
  | crossUp =>
    refine ⟨twoDays p q, holdsNumbers_twoDays p q, ?_⟩
    rw [(matchesLeaf_twoDays hp hq hp hv).1, (matchesLeaf_twoDays hp hq hq hw).1, hnot q, Bool.and_false,
      decide_eq_true (le_self hp), decide_eq_true hlt]
    decide
  | crossDown =>
    refine ⟨twoDays q p, holdsNumbers_twoDays q p, ?_⟩
    rw [(matchesLeaf_twoDays hq hp hp hv).2, (matchesLeaf_twoDays hq hp hq hw).2, hnot p, Bool.and_false,
      decide_eq_true (le_self hq), decide_eq_true hlt]
    decide
  | _ => exact absurd hop (by decide)

/-! ## When both are alike -/

section Alike

variable {field : String} {d : Descriptor}

/-- A number that is not its own ten-thousandth is told from a text that reads as it wherever one number is compared with. -/
theorem div_eq_of_alike {op : Operator} (hop : op.comparesNumber = true) {x : Float} {s : String}
    (hs : Decimal.read s = some x)
    (h : Leaf.Alike ⟨"market_cap", op, .literal (.number x)⟩ ⟨"market_cap", op, .literal (.text s)⟩) : x / 10000.0 = x := by
  obtain ⟨d, hd, -⟩ := Registry.isStored_iff.1 isStored_marketCap
  have hnum : d.isNumeric = true := by
    have hkind : (Registry.builtin.resolve? (canonicalName "market_cap")).all Descriptor.isNumeric = true := rfl
    rwa [hd] at hkind
  have hcases : op.isCross = true ∨ ∃ rel, Relation.ofOperator? op = some rel := by
    cases op <;> first | exact absurd hop (by decide) | exact .inl rfl | exact .inr ⟨_, rfl⟩
  rcases hcases with hcross | ⟨rel, hrel⟩
  · by_contra hne
    have hx : x.isNaN = false := Bool.eq_false_iff.2 fun hnan => hne (div_of_isNaN hnan)
    have hseparate : ∃ ctx : Context, ctx.HoldsNumbers ∧
        ctx.matchesLeaf ⟨"total_mv", op, .literal (.text s)⟩ ≠
          ctx.matchesLeaf ⟨"total_mv", op, .literal (.number (x / 10000.0))⟩ := by
      rcases lt_or_gt_of_div_ne hx hne with hlt | hlt
      · exact exists_crossing (v := .text s) (w := .number (x / 10000.0)) hcross hs rfl hx (isNaN_div hx) hlt
      · obtain ⟨ctx, hctx, hdiffer⟩ :=
          exists_crossing (v := .number (x / 10000.0)) (w := .text s) hcross rfl hs (isNaN_div hx) hx hlt
        exact ⟨ctx, hctx, hdiffer.symm⟩
    obtain ⟨ctx, hctx, hdiffer⟩ := hseparate
    exact hdiffer (h.evaluation ctx hctx)
  · exact eq_of_predicate_eq hd hnum isStored_marketCap hrel hs (filterOf_eq_iff.1 h.filter)

/-- There is the same against a number and against a text in its place. -/
theorem issues_scalar (hd : Registry.builtin.resolve? field = some d) (hnum : d.isNumeric = true) {s : String} {y : Float}
    (hs : Decimal.read s = some y) (op : Operator) (x : Float) :
    Registry.builtin.issues (.leaf (Leaf.normalize ⟨field, op, .literal (.text s)⟩)) =
      Registry.builtin.issues (.leaf (Leaf.normalize ⟨field, op, .literal (.number x)⟩)) := by
  rw [Leaf.normalize_text, Leaf.normalize_number]
  exact issues_leaf_eq rfl (leafReason?_text ((Registry.builtin.resolve?_canonicalName field).trans hd) hnum hs _)

/-- A number and a text that reads as it are alike, unless a stored field is searched for them, or one of them is divided by
ten thousand and the number is not its own ten-thousandth. -/
theorem alike_scalar_iff (hd : Registry.builtin.resolve? field = some d) (hnum : d.isNumeric = true) {op : Operator}
    {x : Float} {s : String} (hs : Decimal.read s = some x) :
    Leaf.Alike ⟨field, op, .literal (.number x)⟩ ⟨field, op, .literal (.text s)⟩ ↔
      (op = .contains → Registry.builtin.isStored field = false) ∧
        (field = "market_cap" → op.comparesNumber = true → x / 10000.0 = x) := by
  have hcanonical := (Registry.builtin.resolve?_canonicalName field).trans hd
  have hstored := Registry.isStored_canonicalName field
  constructor
  · intro h
    refine ⟨?_, ?_⟩
    · rintro rfl
      by_contra hnot
      have hfield : Registry.builtin.isStored (canonicalName field) = true := by
        rw [hstored]
        exact Bool.eq_true_of_not_eq_false hnot
      have hfilter := filterOf_eq_iff.1 h.filter
      rw [Leaf.normalize_text, Leaf.normalize_number, predicate_of_stored hcanonical hfield,
        predicate_of_stored hcanonical hfield] at hfilter
      exact absurd hfilter (fun heq => nomatch heq)
    · rintro rfl hcompares
      exact div_eq_of_alike hcompares hs h
  · rintro ⟨hcontains, hscaled⟩
    have hy : op.comparesNumber = true → x = scaled field x := by
      intro hcompares
      unfold scaled
      split
      · rename_i hfield
        exact (hscaled hfield hcompares).symm
      · rfl
    refine ⟨?_, ?_, ?_⟩
    · exact issues_scalar hd hnum hs op x
    · rw [filterOf_eq_iff, Leaf.normalize_text, Leaf.normalize_number]
      cases hfield : Registry.builtin.isStored field with
      | true =>
        have hop : op ≠ .contains := fun hop => absurd (hfield.symm.trans (hcontains hop)) (by decide)
        rw [predicate_of_stored hcanonical (hstored.trans hfield), predicate_of_stored hcanonical (hstored.trans hfield)]
        exact literalPredicate_text hnum hs hop hy _
      | false =>
        have hnot := hstored.trans hfield
        rw [predicate_of_not_stored hcanonical hnot, predicate_of_not_stored hcanonical hnot]
    · intro ctx hctx
      rw [Leaf.normalize_text, Leaf.normalize_number]
      refine matchesLeaf_eq_of_holds hctx hcanonical hnum (canonicalName_canonicalName field) (holds_respelled hs hy) ?_
      intro hcross
      have hcompares : op.comparesNumber = true := by
        cases op <;> first | rfl | exact absurd hcross (by decide)
      exact hs.trans (congrArg some (hy hcompares))

/-- Nothing is replaced in a literal by itself. -/
@[simp] theorem replaced?_self (v : Literal) : v.replaced? v = none := by
  cases v <;> rfl

/-- Under the names of the registry a respelled literal is the same number, unless its number is divided and is not its own
ten-thousandth. -/
theorem asNumber_normalizeLiteral_iff {v v' : Literal} (h : v.Respelled v') (field : String) :
    (normalizeLiteral field v').asNumber = (normalizeLiteral field v).asNumber ↔
      (field = "market_cap" → ∀ x ∈ v.replaced? v', x / 10000.0 = x) := by
  obtain ⟨hspelled, hnumber⟩ := h
  cases hspelled with
  | same => simp
  | @text x y s hs =>
    obtain rfl : y = x := Option.some.inj (hs.symm.trans hnumber)
    have htext : (Literal.text s).asNumber = some y := hs
    rw [normalizeLiteral_text, normalizeLiteral_number, htext, Literal.asNumber, Option.some_inj]
    unfold scaled
    split
    · rename_i hfield
      simp [hfield, Literal.replaced?, eq_comm]
    · rename_i hfield
      simp [hfield]

/-- The bounds of two pairs of numbers are the same when the numbers are. -/
theorem asBounds_eq_iff {v w v' w' : Literal} (h : (Literal.list [v, w]).asBounds.isSome = true) :
    (Literal.list [v', w']).asBounds = (Literal.list [v, w]).asBounds ↔
      v'.asNumber = v.asNumber ∧ w'.asNumber = w.asNumber := by
  rw [isSome_asBounds, Bool.and_eq_true] at h
  obtain ⟨x, hx⟩ := Option.isSome_iff_exists.1 h.1
  obtain ⟨y, hy⟩ := Option.isSome_iff_exists.1 h.2
  rw [Literal.asBounds, Literal.asBounds, hx, hy]
  cases v'.asNumber <;> cases w'.asNumber <;> simp

/-- There is the same against two ranges of which both have bounds or neither has. -/
theorem leafReason?_between {v v' : Literal} (h : v'.asBounds.isSome = v.asBounds.isSome) (field : String) :
    Registry.builtin.leafReason? ⟨field, .between, .literal v'⟩ =
      Registry.builtin.leafReason? ⟨field, .between, .literal v⟩ := by
  simp only [Registry.leafReason?, Descriptor.literalReason?, h]

/-- There is the same against a range and against one with texts in place of its numbers. -/
theorem issues_bounds {low low' high high' : Literal} (hlow : low.Spelled low') (hhigh : high.Spelled high') :
    Registry.builtin.issues (.leaf (Leaf.normalize ⟨field, .between, .literal (.list [low', high'])⟩)) =
      Registry.builtin.issues (.leaf (Leaf.normalize ⟨field, .between, .literal (.list [low, high])⟩)) := by
  rw [Leaf.normalize_pair, Leaf.normalize_pair]
  refine issues_leaf_eq rfl (leafReason?_between ?_ _)
  simp only [isSome_asBounds, isSome_asNumber_normalizeLiteral, hlow.isSome_asNumber, hhigh.isSome_asNumber]

/-- Ranges with the same bounds are the same to the store. -/
theorem predicate_between {v v' : Literal} (h : v'.asBounds = v.asBounds) (field : String) :
    Registry.builtin.predicate ⟨field, .between, .literal v'⟩ = Registry.builtin.predicate ⟨field, .between, .literal v⟩ := by
  simp only [Registry.predicate, Registry.literalPredicate, h]

/-- Ranges of a stored field that are the same to the store have the same bounds. -/
theorem asBounds_eq_of_predicate (hd : Registry.builtin.resolve? field = some d)
    (hstored : Registry.builtin.isStored field = true) {v v' : Literal} (hv : v.asBounds.isSome = true)
    (hv' : v'.asBounds.isSome = true)
    (h : Registry.builtin.predicate ⟨field, .between, .literal v'⟩ =
      Registry.builtin.predicate ⟨field, .between, .literal v⟩) :
    v'.asBounds = v.asBounds := by
  obtain ⟨⟨x, y⟩, hxy⟩ := Option.isSome_iff_exists.1 hv
  obtain ⟨⟨x', y'⟩, hxy'⟩ := Option.isSome_iff_exists.1 hv'
  have hrange : ∀ {w : Literal} {p q : Float}, w.asBounds = some (p, q) →
      Registry.literalPredicate d field .between w = .ok (.range d.name p q) := by
    intro w p q hw
    rw [Registry.literalPredicate, hw]
    rfl
  rw [predicate_of_stored hd hstored, predicate_of_stored hd hstored, hrange hxy, hrange hxy'] at h
  obtain ⟨-, rfl, rfl⟩ := Predicate.range.inj (Except.ok.inj h)
  rw [hxy, hxy']

/-- Ranges with respelled bounds are alike, unless the bounds are divided by ten thousand and a replaced number is not its own
ten-thousandth. -/
theorem alike_bounds_iff (hd : Registry.builtin.resolve? field = some d) (hnum : d.isNumeric = true)
    {low low' high high' : Literal} (hlow : low.Respelled low') (hhigh : high.Respelled high') :
    Leaf.Alike ⟨field, .between, .literal (.list [low, high])⟩ ⟨field, .between, .literal (.list [low', high'])⟩ ↔
      (field = "market_cap" → (Literal.list [low, high]).asBounds.isSome = true →
        ∀ x ∈ (low.replaced? low').toList ++ (high.replaced? high').toList, x / 10000.0 = x) := by
  have hcanonical := (Registry.builtin.resolve?_canonicalName field).trans hd
  have hpair : ∀ v w, (Literal.list [normalizeLiteral field v, normalizeLiteral field w]).asBounds.isSome =
      (Literal.list [v, w]).asBounds.isSome := by
    intro v w
    simp only [isSome_asBounds, isSome_asNumber_normalizeLiteral]
  have hsome : (Literal.list [low', high']).asBounds.isSome = (Literal.list [low, high]).asBounds.isSome := by
    rw [isSome_asBounds, isSome_asBounds, hlow.1.isSome_asNumber, hhigh.1.isSome_asNumber]
  have hfigures : (Literal.list [low, high]).asBounds.isSome = true →
      ((Literal.list [normalizeLiteral field low', normalizeLiteral field high']).asBounds =
          (Literal.list [normalizeLiteral field low, normalizeLiteral field high]).asBounds ↔
        (field = "market_cap" → ∀ x ∈ (low.replaced? low').toList ++ (high.replaced? high').toList, x / 10000.0 = x)) := by
    intro hbounds
    rw [asBounds_eq_iff (by rwa [hpair]), asNumber_normalizeLiteral_iff hlow, asNumber_normalizeLiteral_iff hhigh]
    simp only [List.mem_append, Option.mem_toList]
    constructor
    · rintro ⟨hl, hh⟩ hfield x (hx | hx)
      · exact hl hfield x hx
      · exact hh hfield x hx
    · intro h
      exact ⟨fun hfield x hx => h hfield x (.inl hx), fun hfield x hx => h hfield x (.inr hx)⟩
  constructor
  · rintro h rfl hbounds
    refine (hfigures hbounds).1 ?_ rfl
    have hfilter := filterOf_eq_iff.1 h.filter
    rw [Leaf.normalize_pair, Leaf.normalize_pair] at hfilter
    refine asBounds_eq_of_predicate hcanonical isStored_marketCap ?_ ?_ hfilter
    · rw [hpair, hbounds]
    · rw [hpair, hsome, hbounds]
  · intro h
    have hsame : (Literal.list [normalizeLiteral field low', normalizeLiteral field high']).asBounds =
        (Literal.list [normalizeLiteral field low, normalizeLiteral field high]).asBounds := by
      cases hbounds : (Literal.list [low, high]).asBounds.isSome with
      | true => exact (hfigures hbounds).2 fun hfield => h hfield hbounds
      | false =>
        have hnone := (hpair low high).trans hbounds
        have hnone' := (hpair low' high').trans (hsome.trans hbounds)
        rw [Option.isSome_eq_false_iff, Option.isNone_iff_eq_none] at hnone hnone'
        rw [hnone, hnone']
    refine ⟨?_, ?_, ?_⟩
    · exact issues_bounds hlow.1 hhigh.1
    · rw [filterOf_eq_iff, Leaf.normalize_pair, Leaf.normalize_pair]
      exact predicate_between hsame _
    · intro ctx hctx
      rw [Leaf.normalize_pair, Leaf.normalize_pair]
      refine matchesLeaf_eq_of_holds hctx hcanonical hnum (canonicalName_canonicalName field) (fun z => ?_) ?_
      · simp only [Comparison.holds, Comparison.compare, Comparison.between, hsame]
      · intro hcross
        exact absurd hcross (by decide)

end Alike

/-- Nothing is replaced in a comparison by itself. -/
theorem Leaf.replaced_self (l : Leaf) : l.replaced l = [] := by
  unfold replaced
  split
  · rename_i hright hright'
    obtain ⟨rfl, rfl⟩ : _ ∧ _ := by simpa [hright] using hright'
    simp
  · rename_i hright hright'
    obtain rfl := Operand.literal.inj (hright.symm.trans hright')
    simp
  · rfl

/-- A number and a text that reads as it are interchangeable as literals of a field of numbers for validation, and for the
store and every evaluation under two conditions: no stored field is searched for them, and a number that is compared with
for `market_cap` is its own ten-thousandth. -/
theorem alike_iff {l l' : Leaf} (h : l.Respelled l') {d : Descriptor} (hd : Registry.builtin.resolve? l.field = some d)
    (hnum : d.isNumeric = true) :
    Registry.builtin.issues (.leaf l'.normalize) = Registry.builtin.issues (.leaf l.normalize) ∧
      (l.Alike l' ↔
        (l.op = .contains → Registry.builtin.isStored l.field = true → l' = l) ∧
          (l.field = "market_cap" → l.readsNumbers = true → ∀ x ∈ l.replaced l', x / 10000.0 = x)) := by
  cases h with
  | @scalar field op v v' h =>
    obtain ⟨hspelled, hnumber⟩ := h
    cases hspelled with
    | same =>
      refine ⟨rfl, fun _ => ⟨fun _ _ => rfl, fun _ _ x hx => ?_⟩, fun _ => ⟨rfl, rfl, fun _ _ => rfl⟩⟩
      rw [Leaf.replaced_self] at hx
      exact absurd hx List.not_mem_nil
    | @text x y s hs =>
      obtain rfl : y = x := Option.some.inj (hs.symm.trans hnumber)
      refine ⟨issues_scalar hd hnum hs op y, (alike_scalar_iff hd hnum hs).trans (and_congr ?_ ?_)⟩
      · refine imp_congr_right fun _ => ⟨fun hnot hstored => absurd (hnot.symm.trans hstored) (by decide), fun hsame => ?_⟩
        exact Bool.eq_false_iff.2 fun hstored => nomatch hsame hstored
      · have hreads : Leaf.readsNumbers ⟨field, op, .literal (.number y)⟩ = op.comparesNumber := by
          cases op <;> rfl
        have hreplaced : Leaf.replaced ⟨field, op, .literal (.number y)⟩ ⟨field, op, .literal (.text s)⟩ = [y] := rfl
        rw [hreads, hreplaced]
        simp only [List.forall_mem_singleton]
  | @bounds field low low' high high' hlow hhigh =>
    refine ⟨issues_bounds hlow.1 hhigh.1, (alike_bounds_iff hd hnum hlow hhigh).trans ?_⟩
    exact ⟨fun hscaled => ⟨nofun, hscaled⟩, fun hboth => hboth.2⟩

/-- A range of a price to earnings, and the same with its lower bound as a text, are interchangeable. -/
theorem alike_price_range :
    Leaf.Alike ⟨"pe_ratio", .between, .literal (.list [.number 10.0, .number 20.0])⟩
      ⟨"pe_ratio", .between, .literal (.list [.text " 1e1", .number 20.0])⟩ := by
  have hread : Decimal.read " 1e1" = some 10.0 := by decide +kernel
  have hlow : Literal.Respelled (.number 10.0) (.text " 1e1") := ⟨.text 10.0 hread, hread⟩
  have hpe : ∃ d, Registry.builtin.resolve? "pe_ratio" = some d ∧ d.isNumeric = true :=
    Option.any_eq_true _ _ |>.1 (by decide +kernel)
  obtain ⟨d, hd, hnum⟩ := hpe
  refine (alike_iff (.bounds "pe_ratio" hlow ⟨.same _, rfl⟩) hd hnum).2.2 ⟨nofun, fun hfield => ?_⟩
  exact absurd hfield (by decide)

/-- A market capitalisation in ten thousands is divided where it is a number, and is left as it is where it is a text. -/
theorem market_cap_as_text_is_not_divided :
    Leaf.Respelled ⟨"market_cap", .gte, .literal (.number 1000000.0)⟩ ⟨"market_cap", .gte, .literal (.text "1000000")⟩ ∧
      (Registry.builtin.resolve? "market_cap").any Descriptor.isNumeric = true ∧
      Registry.builtin.filterOf [⟨"market_cap", .gte, .literal (.number 1000000.0)⟩] =
        .ok [.compare "total_mv" .gte (.number 100.0)] ∧
      Registry.builtin.filterOf [⟨"market_cap", .gte, .literal (.text "1000000")⟩] =
        .ok [.compare "total_mv" .gte (.number 1000000.0)] ∧
      ¬Leaf.Alike ⟨"market_cap", .gte, .literal (.number 1000000.0)⟩ ⟨"market_cap", .gte, .literal (.text "1000000")⟩ := by
  have hread : Decimal.read "1000000" = some 1000000.0 := by decide +kernel
  have hnumber : Registry.builtin.filterOf [⟨"market_cap", .gte, .literal (.number 1000000.0)⟩] =
      .ok [.compare "total_mv" .gte (.number 100.0)] := by
    have hdivided : (1000000.0 : Float) / 10000.0 = 100.0 := by decide +kernel
    rw [← hdivided]
    rfl
  have htext : Registry.builtin.filterOf [⟨"market_cap", .gte, .literal (.text "1000000")⟩] =
      .ok [.compare "total_mv" .gte (.number 1000000.0)] := by
    rfl
  refine ⟨.scalar _ _ ⟨.text _ hread, hread⟩, by decide +kernel, hnumber, htext, fun h => ?_⟩
  have hsame := h.filter
  rw [hnumber, htext] at hsame
  obtain ⟨-, -, hvalue⟩ := Predicate.compare.inj (List.cons.inj (Except.ok.inj hsame)).1
  exact absurd hvalue (by decide +kernel)

end EquityScreen
