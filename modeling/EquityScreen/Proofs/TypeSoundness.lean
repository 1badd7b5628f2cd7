import EquityScreen.Proofs.Lemmas.Contexts
import EquityScreen.Proofs.Lemmas.Predicates
import EquityScreen.Proofs.Lemmas.Specs

/-!
# Accepted comparisons do not fail

A value is of a field if it is a number and the field holds numbers, or a text and the field holds texts. A comparison of such a
value with a literal that the field accepts has an answer, one case for each operator (`Comparison.exists_compare`), and the
value of another field of the same kind is such a literal. So in a context that has values of its fields only
(`Context.Typed`) no accepted comparison fails, and an answer of no match is never an error in disguise. Every context that a
computed screen makes of a store is one of these (`ComputedScreen.typed_of_context?`).
-/

namespace EquityScreen

namespace Descriptor

variable {d : Descriptor} {v : Value} {op : Operator} {w : Literal}

/-- The value is one of the field: a number if the field holds numbers, and else a text. -/
def Holds (d : Descriptor) : Value → Prop
  | .number _ => d.isNumeric = true
  | .text _ => d.isNumeric = false

theorem Holds.exists_number (h : d.Holds v) (hd : d.isNumeric = true) : ∃ x, v = .number x := by
  cases v with
  | number x => exact ⟨x, rfl⟩
  | text s => exact absurd (hd.symm.trans h) (by decide)

theorem Holds.exists_text (h : d.Holds v) (hd : d.isNumeric = false) : ∃ s, v = .text s := by
  cases v with
  | number x => exact absurd (hd.symm.trans h) (by decide)
  | text s => exact ⟨s, rfl⟩

/-- A value of a field is one of every field of the same kind. -/
theorem Holds.of_kind {d' : Descriptor} (h : d'.Holds v) (hkind : d'.kind = d.kind) : d.Holds v := by
  have hsame : d.isNumeric = d'.isNumeric := by rw [isNumeric, isNumeric, hkind]
  cases v with
  | number x => exact hsame.trans h
  | text s => exact hsame.trans h

/-- A value of a field is a literal that fits the field. -/
theorem Holds.fits (h : d.Holds v) : d.fits (Literal.ofValue v) = true := by
  cases v with
  | number x => exact h
  | text s =>
    rw [Literal.ofValue, Descriptor.fits, show d.isNumeric = false from h]
    rfl

/-- The literal of a comparison of two values is accepted when it fits. -/
theorem literalReason?_eq_none_iff (hlist : op.takesList = false) (hcontains : op ≠ .contains) :
    d.literalReason? op w = none ↔ d.fits w = true := by
  have hscalar : d.literalReason? op w = if d.fits w then none else some (d.misfit op w) := by
    cases op <;> first | rfl | exact absurd hlist (by decide) | exact absurd rfl hcontains
  rw [hscalar]
  cases d.fits w <;> simp

/-- Crossings apart, a field of the catalog has the operators of what it holds. -/
theorem mem_storedOperators (hd : d ∈ Catalog.all) (hop : d.supports op = true) (hcross : op.isCross = false) :
    op ∈ d.storedOperators := by
  have hall : ∀ d ∈ Catalog.all, ∀ op ∈ d.operators, op.isCross = false → op ∈ d.storedOperators := by decide
  exact hall d hd op (by simpa [supports] using hop) hcross

end Descriptor

/-! ## Comparing a value of a field -/

namespace Comparison

variable {d : Descriptor} {v : Value} {op : Operator} {w : Literal}

/-- A value of a field equals a literal that fits the field, or does not. -/
theorem exists_equal (hv : d.Holds v) (hw : d.fits w = true) : ∃ b, equal v w = .ok b := by
  cases hd : d.isNumeric with
  | true =>
    obtain ⟨x, rfl⟩ := hv.exists_number hd
    obtain ⟨y, hy⟩ := Leaf.asNumber_of_fits hd hw
    exact ⟨x == y, equal_of_asNumber hy x⟩
  | false =>
    obtain ⟨s, rfl⟩ := hv.exists_text hd
    obtain ⟨t, rfl⟩ := Leaf.text_of_fits hd hw
    exact ⟨s == t, rfl⟩

/-- A number compared by an operator of numbers with an accepted literal. -/
theorem exists_compare_number (hnum : d.isNumeric = true) (x : Float) (hop : op ∈ Operator.numeric)
    (hreason : d.literalReason? op w = none) : ∃ b, compare (.number x) op w = .ok b := by
  by_cases hbetween : op = .between
  · subst hbetween
    have hbounds : w.asBounds ≠ none := by simpa [Descriptor.literalReason?] using hreason
    obtain ⟨bounds, hbounds⟩ := Option.ne_none_iff_exists'.1 hbounds
    refine ⟨bounds.1 ≤ x && x ≤ bounds.2, ?_⟩
    rw [compare, between, hbounds]
    rfl
  · have hscalar : op.takesList = false ∧ op ≠ .contains := by
      revert hop hbetween
      cases op <;> decide
    have hfits : d.fits w = true := (Descriptor.literalReason?_eq_none_iff hscalar.1 hscalar.2).1 hreason
    obtain ⟨y, hy⟩ := Leaf.asNumber_of_fits hnum hfits
    cases op
    case gt | lt | gte | lte => exact ⟨_, numbers_of_asNumber hy _ x⟩
    case eq => exact ⟨_, equal_of_asNumber hy x⟩
    case ne =>
      refine ⟨!(x == y), ?_⟩
      rw [compare, equal_of_asNumber hy x]
      rfl
    case between => exact absurd rfl hbetween
    all_goals exact absurd hop (by decide)

/-- A text compared by an operator of texts with an accepted literal. -/
theorem exists_compare_text (htext : d.isNumeric = false) (s : String) (hop : op ∈ Operator.textual)
    (hreason : d.literalReason? op w = none) : ∃ b, compare (.text s) op w = .ok b := by
  cases op
  case eq | ne =>
    have hfits : d.fits w = true := (Descriptor.literalReason?_eq_none_iff rfl (by decide)).1 hreason
    obtain ⟨t, rfl⟩ := Leaf.text_of_fits htext hfits
    exact ⟨_, rfl⟩
  case isIn =>
    obtain ⟨items, rfl, -⟩ := Leaf.fits_of_list (.inl rfl) hreason
    exact ⟨_, rfl⟩
  case notIn =>
    obtain ⟨items, rfl, -⟩ := Leaf.fits_of_list (.inr rfl) hreason
    exact ⟨_, rfl⟩
  case contains =>
    have hneedle : w.asText ≠ none := by simpa [Descriptor.literalReason?] using hreason
    obtain ⟨needle, hneedle⟩ := Option.ne_none_iff_exists'.1 hneedle
    refine ⟨Text.holdsFolded s needle, ?_⟩
    rw [compare, contains, hneedle]
    rfl
  all_goals exact absurd hop (by decide)

/-- A value of a field compared with a literal that the field accepts. -/
theorem exists_compare (hv : d.Holds v) (hop : op ∈ d.storedOperators) (hreason : d.literalReason? op w = none) :
    ∃ b, compare v op w = .ok b := by
  rw [Descriptor.storedOperators] at hop
  cases hd : d.isNumeric with
  | true =>
    obtain ⟨x, rfl⟩ := hv.exists_number hd
    exact exists_compare_number hd x (by rwa [hd, if_pos rfl] at hop) hreason
  | false =>
    obtain ⟨s, rfl⟩ := hv.exists_text hd
    exact exists_compare_text hd s (by rwa [hd, if_neg Bool.false_ne_true] at hop) hreason

/-- Where a value equals a literal or does not, `!=` is the opposite of `==`. -/
theorem holds_ne {b : Bool} (h : equal v w = .ok b) : holds v .ne w = !holds v .eq w := by
  rw [holds, holds, compare, compare, h]
  rfl

/-- For a list of literals, `not_in` is the opposite of `in`. -/
theorem holds_notIn (items : List Literal) : holds v .notIn (.list items) = !holds v .isIn (.list items) := rfl

end Comparison

/-! ## Evaluating an accepted comparison -/

namespace Context

/-- What is present of a field is a value of the field. -/
def Typed (ctx : Context) : Prop :=
  ∀ name d v, Registry.builtin.resolve? name = some d → ctx.present? name = some v → d.Holds v

variable {ctx : Context} {l : Leaf}

/-- What the right side of an accepted comparison stands for is a literal that the field accepts. -/
theorem Typed.exists_accepts (hctx : ctx.Typed) (haccepted : Registry.builtin.leafReason? l = none) {w : Literal}
    (hw : ctx.operand? l.right = some w) :
    ∃ d, Registry.builtin.resolve? l.field = some d ∧ d.supports l.op = true ∧ d.literalReason? l.op w = none := by
  obtain ⟨d, hd, hop, hright⟩ := (Registry.builtin.leafReason?_eq_none_iff l).1 haccepted
  refine ⟨d, hd, hop, ?_⟩
  cases hl : l.right with
  | literal v =>
    rw [hl] at hw hright
    rwa [← Option.some.inj hw]
  | field other =>
    rw [hl] at hw hright
    obtain ⟨hcomparable, hlist, hcontains⟩ := hright
    obtain ⟨v, hv, rfl⟩ := Option.map_eq_some_iff.1 hw
    obtain ⟨d', hd', hkind⟩ := Option.any_eq_true _ _ |>.1 hcomparable
    have hholds : d.Holds v := (hctx other d' v hd' hv).of_kind (beq_iff_eq.1 hkind)
    exact (Descriptor.literalReason?_eq_none_iff hlist hcontains).2 hholds.fits

/-- An accepted comparison that is no crossing has an answer. -/
theorem Typed.exists_compareLeaf (hctx : ctx.Typed) (haccepted : Registry.builtin.leafReason? l = none)
    (hcross : l.op.isCross = false) : ∃ b, ctx.compareLeaf l = .ok b := by
  rw [compareLeaf]
  cases hleft : ctx.present? l.field with
  | none => exact ⟨false, rfl⟩
  | some v =>
    cases hright : ctx.operand? l.right with
    | none => exact ⟨false, rfl⟩
    | some w =>
      obtain ⟨d, hd, hop, hreason⟩ := hctx.exists_accepts haccepted hright
      have hops : l.op ∈ d.storedOperators := Descriptor.mem_storedOperators (Registry.mem_of_resolve? hd).1 hop hcross
      exact Comparison.exists_compare (hctx _ _ _ hd hleft) hops hreason

/-- The answer is what the comparison counts for. -/
theorem Typed.compareLeaf_eq (hctx : ctx.Typed) (haccepted : Registry.builtin.leafReason? l = none)
    (hcross : l.op.isCross = false) : ctx.compareLeaf l = .ok (ctx.matchesLeaf l) := by
  obtain ⟨b, hb⟩ := hctx.exists_compareLeaf haccepted hcross
  rw [matchesLeaf, hcross, hb]
  rfl

section Opposites

variable (hctx : ctx.Typed) (haccepted : Registry.builtin.leafReason? l = none)
  (hleft : (ctx.present? l.field).isSome = true) (hright : (ctx.operand? l.right).isSome = true)

include hctx haccepted hleft hright

/-- Of two values that are there either `==` matches or `!=`. -/
theorem Typed.matchesLeaf_ne (hop : l.op = .eq ∨ l.op = .ne) :
    ctx.matchesLeaf { l with op := .ne } = !ctx.matchesLeaf { l with op := .eq } := by
  obtain ⟨v, hv⟩ := Option.isSome_iff_exists.1 hleft
  obtain ⟨w, hw⟩ := Option.isSome_iff_exists.1 hright
  obtain ⟨d, hd, -, hreason⟩ := hctx.exists_accepts haccepted hw
  have hscalar : l.op.takesList = false ∧ l.op ≠ .contains := by rcases hop with h | h <;> rw [h] <;> decide
  have hfits : d.fits w = true := (Descriptor.literalReason?_eq_none_iff hscalar.1 hscalar.2).1 hreason
  obtain ⟨b, hb⟩ := Comparison.exists_equal (hctx _ _ _ hd hv) hfits
  rw [ctx.matchesLeaf_eq (l := { l with op := .ne }) rfl, ctx.matchesLeaf_eq (l := { l with op := .eq }) rfl]
  simp only [hv, hw]
  exact Comparison.holds_ne hb

/-- A value that is there is among the literals of a list or not. -/
theorem Typed.matchesLeaf_notIn (hop : l.op = .isIn ∨ l.op = .notIn) :
    ctx.matchesLeaf { l with op := .notIn } = !ctx.matchesLeaf { l with op := .isIn } := by
  obtain ⟨v, hv⟩ := Option.isSome_iff_exists.1 hleft
  obtain ⟨w, hw⟩ := Option.isSome_iff_exists.1 hright
  obtain ⟨d, -, -, hreason⟩ := hctx.exists_accepts haccepted hw
  obtain ⟨items, rfl, -⟩ := Leaf.fits_of_list hop hreason
  rw [ctx.matchesLeaf_eq (l := { l with op := .notIn }) rfl, ctx.matchesLeaf_eq (l := { l with op := .isIn }) rfl]
  simp only [hv, hw]
  exact Comparison.holds_notIn items

end Opposites

end Context

/-! ## The contexts of a screen -/

/-- The names that a screen may give to a field of texts. -/
def textNames : List String := ["symbol", "name", "industry", "area", "market", "code"]

/-- No other name stands for a field of texts. -/
theorem Registry.isNumeric_of_not_mem_textNames {name : String} {d : Descriptor} (hname : name ∉ textNames)
    (hd : builtin.resolve? name = some d) : d.isNumeric = true := by
  obtain ⟨hmem, hdname⟩ := mem_of_resolve? hd
  have hcatalog : ∀ d ∈ Catalog.all, d.isNumeric = true ∨ d.name ∈ textNames := by decide
  have hold : ∀ e ∈ oldNames, e.2 ∈ textNames → e.1 ∈ textNames := by decide
  refine (hcatalog d hmem).resolve_right fun htext => hname ?_
  rw [hdname] at htext
  rcases canonicalName_cases name with ⟨h, -⟩ | ⟨e, he, rfl, h⟩
  · rwa [h] at htext
  · rw [h] at htext
    exact hold e he htext

namespace Series

/-- No column of the series has the name of a field of texts. -/
def HasNoTexts (s : Series) : Prop := ∀ name, s.columns.contains name = true → name ∉ textNames

theorem HasNoTexts.insert {s : Series} (hs : s.HasNoTexts) {name : String} (hname : name ∉ textNames)
    (values : List Float) : (s.insert name values).HasNoTexts := by
  intro field hfield
  rw [Named.contains_eq_isSome, Series.insert, Named.get?_insert] at hfield
  split at hfield
  · rename_i heq
    rwa [heq]
  · exact hs field (by rwa [Named.contains_eq_isSome])

theorem HasNoTexts.insertAll {columns : List (String × List Float)} (h : ∀ c ∈ columns, c.1 ∉ textNames) {s : Series}
    (hs : s.HasNoTexts) : (s.insertAll columns).HasNoTexts := by
  induction columns generalizing s with
  | nil => exact hs
  | cons c rest ih =>
    exact ih (fun c hc => h c (List.mem_cons_of_mem _ hc)) (hs.insert (h c List.mem_cons_self) c.2)

/-- The columns of bars are none of a field of texts. -/
theorem hasNoTexts_ofBars (bars : List Bar) : (ofBars bars).HasNoTexts := by
  have hempty : Series.HasNoTexts ⟨(ofBars bars).dates, .empty⟩ := fun name hname => absurd hname Bool.false_ne_true
  have hnames : "open" ∉ textNames ∧ "high" ∉ textNames ∧ "low" ∉ textNames ∧ "close" ∉ textNames ∧
      "volume" ∉ textNames ∧ "amount" ∉ textNames := by decide
  obtain ⟨hopen, hhigh, hlow, hclose, hvolume, hamount⟩ := hnames
  exact (((((hempty.insert hopen _).insert hhigh _).insert hlow _).insert hclose _).insert hvolume _).insert hamount _

theorem HasNoTexts.withChange {s : Series} (hs : s.HasNoTexts) : s.withChange.HasNoTexts := by
  unfold Series.withChange
  cases s.column? "close" with
  | none => exact hs
  | some close => exact hs.insert (by decide) _

end Series

/-- The columns of an indicator are none of a field of texts. -/
theorem Indicator.not_mem_textNames (i : Indicator) (s : Series) : ∀ c ∈ i.columns s, c.1 ∉ textNames := by
  intro c hc
  refine i.not_mem_of_mem_outputs rfl (by decide) c.1 ?_
  rw [← i.map_fst_columns s]
  exact List.mem_map_of_mem hc

/-- No column is given the name of a field of texts by what is computed. -/
theorem Series.HasNoTexts.compute {s : Series} (hs : s.HasNoTexts) {specs : List Spec} {out : Series}
    (h : s.compute specs = .ok out) : out.HasNoTexts := by
  obtain ⟨indicators, -, rfl⟩ := compute_eq_ok_iff.1 h
  refine hs.insertAll fun c hc => ?_
  obtain ⟨i, -, hc⟩ := List.mem_flatMap.1 hc
  exact i.not_mem_textNames s c hc

namespace Context

/-- A record has values of its fields. -/
theorem typed_snapshot (r : Record) : (snapshot r.snapshot).Typed := by
  have hkinds : ∀ c ∈ Column.all, ∀ d, Registry.builtin.resolve? c.label = some d → d.isNumeric = c.isNumeric := by
    have hall : ∀ c ∈ Column.all, (Registry.builtin.resolve? c.label).all (·.isNumeric == c.isNumeric) = true := by decide
    intro c hc d hd
    simpa [hd] using hall c hc
  intro name d v hd hv
  have hget : r.snapshot.get? name = some v := (Option.filter_eq_some_iff.1 hv).1
  rw [Record.get?_snapshot] at hget
  obtain ⟨c, hc, hcell⟩ := Option.bind_eq_some_iff.1 hget
  obtain rfl := Column.label_of_ofName? hc
  have hkind := hkinds c (Column.mem_all c) d hd
  have hcell := (Option.filter_eq_some_iff.1 hcell).1
  cases hnum : c.isNumeric with
  | true =>
    obtain ⟨x, rfl⟩ := Record.cell?_number hnum hcell
    exact hkind.trans hnum
  | false =>
    obtain ⟨s, rfl⟩ := Record.cell?_text hnum hcell
    exact hkind.trans hnum

/-- A series has values of fields of numbers, and of the others the snapshot has values. -/
theorem typed_series {s : Series} (hs : s.HasNoTexts) {snap : Option Snapshot}
    (hsnap : ∀ m, snap = some m → (snapshot m).Typed) : (series s snap).Typed := by
  intro name d v hd hv
  rw [present?_series] at hv
  split at hv
  · rename_i hcolumn
    obtain ⟨hlast, -⟩ := Option.filter_eq_some_iff.1 hv
    obtain ⟨x, -, rfl⟩ := Option.map_eq_some_iff.1 hlast
    exact Registry.isNumeric_of_not_mem_textNames (hs name hcolumn) hd
  · cases snap with
    | none => exact absurd hv (by simp)
    | some m => exact hsnap m rfl name d v hd hv

end Context

/-- What a store has of a symbol is a record. -/
theorem Store.exists_record_of_snapshotOf {s : Store} {symbol : String} {m : Snapshot}
    (h : s.sources.snapshotOf symbol = some m) : ∃ r : Record, m = r.snapshot := by
  have hsource : (s.sources.snapshot symbol).found = (s.get? symbol).map (·.map Record.snapshot) := rfl
  rw [Sources.snapshotOf, hsource] at h
  cases hget : s.get? symbol with
  | error e => exact absurd (hget ▸ h) (by simp [Except.map])
  | ok found =>
    rw [hget] at h
    obtain ⟨r, -, rfl⟩ := Option.map_eq_some_iff.1 h
    exact ⟨r, rfl⟩

/-- The bars of a store have no column of a field of texts. -/
theorem Store.hasNoTexts_of_series? {s : Store} {symbol : String} {start finish : Date} {bars : Series}
    (h : s.series? symbol start finish = some bars) : bars.HasNoTexts := by
  unfold series? at h
  split at h
  · dsimp only at h
    split at h
    · exact absurd h (by simp)
    · obtain rfl := Option.some.inj h
      exact Series.hasNoTexts_ofBars _
  · exact absurd h (by simp)

/-- A computed screen of a store evaluates every symbol in a context that has values of its fields only. -/
theorem ComputedScreen.typed_of_context? {s : Store} {screen : ComputedScreen} {symbol : String} {ctx : Context}
    (h : screen.context? s.sources symbol = some ctx) : ctx.Typed := by
  have hsnapshot : ∀ m, s.sources.snapshotOf symbol = some m → (Context.snapshot m).Typed := by
    intro m hm
    obtain ⟨r, rfl⟩ := Store.exists_record_of_snapshotOf hm
    exact Context.typed_snapshot r
  cases hseries : screen.analysis.needsSeries with
  | true =>
    obtain ⟨bars, out, hbars, hcompute, rfl⟩ := context?_of_needsSeries hseries h
    have hnone : bars.HasNoTexts := Store.hasNoTexts_of_series? hbars
    exact Context.typed_series (hnone.withChange.compute hcompute) hsnapshot
  | false =>
    rw [context?, hseries, if_neg Bool.false_ne_true] at h
    obtain ⟨m, hm, rfl⟩ := Option.map_eq_some_iff.1 h
    exact hsnapshot m hm

/-- Of a condition that the registry accepts, every comparison that is no crossing has an answer in every context that has
values of its fields only, and the answer is what the comparison counts for. Where both of its sides are there, `!=` is the
opposite of `==`, and `not_in` of `in`. Every context that a computed screen makes of a store is one of these. -/
theorem accepted_comparison_answers {c : Condition} (haccepted : Registry.builtin.issues c = []) :
    (∀ ctx : Context, ctx.Typed → ∀ l ∈ c.leaves, l.op.isCross = false →
      ctx.compareLeaf l = .ok (ctx.matchesLeaf l) ∧
        ((ctx.present? l.field).isSome = true → (ctx.operand? l.right).isSome = true →
          (l.op = .eq ∨ l.op = .ne → ctx.matchesLeaf { l with op := .ne } = !ctx.matchesLeaf { l with op := .eq }) ∧
          (l.op = .isIn ∨ l.op = .notIn →
            ctx.matchesLeaf { l with op := .notIn } = !ctx.matchesLeaf { l with op := .isIn }))) ∧
    ∀ (s : Store) (screen : ComputedScreen) (symbol : String) (ctx : Context),
      screen.context? s.sources symbol = some ctx → ctx.Typed := by
  refine ⟨fun ctx hctx l hl hcross => ?_, fun s screen symbol ctx => ComputedScreen.typed_of_context?⟩
  have hleaf : Registry.builtin.leafReason? l = none := (Registry.builtin.issues_eq_nil_iff c).1 haccepted l hl
  refine ⟨hctx.compareLeaf_eq hleaf hcross, fun hleft hright => ?_⟩
  exact ⟨hctx.matchesLeaf_ne hleaf hleft hright, hctx.matchesLeaf_notIn hleaf hleft hright⟩

/-- A bank that costs eight times its earnings. -/
def bank : Record :=
  ⟨"A", fun c => if c = .industry then some "Banking" else none, fun c => if c = .pe then some 8.0 else none⟩

/-- Two comparisons with the bank have answers: its price to earnings is not 12, and its industry is one of two. -/
theorem bank_compared :
    (Context.snapshot bank.snapshot).compareLeaf (.withLiteral "pe" .ne (.number 12.0)) = .ok true ∧
      (Context.snapshot bank.snapshot).matchesLeaf
        (.withLiteral "industry" .notIn (.list [.text "Insurance", .text "Banking"])) = false := by
  let c : Condition := .all [.leaf (.withLiteral "pe" .ne (.number 12.0)),
    .any [.leaf (.withLiteral "industry" .isIn (.list [.text "Insurance", .text "Banking"])),
      .leaf (.against "ma5" .crossUp "ma20")]]
  have haccepted : Registry.builtin.issues c = [] := rfl
  have hanswers := (accepted_comparison_answers haccepted).1 _ (Context.typed_snapshot bank)
  obtain ⟨hanswer, -⟩ := hanswers (.withLiteral "pe" .ne (.number 12.0)) List.mem_cons_self rfl
  obtain ⟨-, hopposite⟩ := hanswers (.withLiteral "industry" .isIn (.list [.text "Insurance", .text "Banking"]))
    (List.mem_cons_of_mem _ List.mem_cons_self) rfl
  exact ⟨hanswer, (hopposite rfl rfl).2 (.inl rfl)⟩

end EquityScreen
