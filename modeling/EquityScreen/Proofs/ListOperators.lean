import EquityScreen.Proofs.TypeSoundness

/-!
# List operators written out

A range is two comparisons of order, `in` is one of several equalities, and `not_in` of a list that is not empty is all of several
inequalities (`Leaf.writtenOut`). Ranges and `in` mean the same written out in every context, because a comparison that fails is no
match on either side (`Comparison.holds_between`, `Comparison.holds_isIn`). With `not_in` a literal that cannot be compared would
count as different and its inequality as no match, so there the literals have to fit the value (`Comparison.holds_notIn_of_fits`),
as those of an accepted comparison do. A tree in which comparisons are replaced by trees of the same meaning keeps its meaning
(`Context.satisfies_graft`).
-/

namespace EquityScreen

/-! ## Trees in the place of comparisons -/

namespace Condition

mutual

/-- The tree with a tree in the place of every comparison. -/
def graft (f : Leaf → Condition) : Condition → Condition
  | .leaf l => f l
  | .group logic children => .group logic (graftAll f children)

/-- Every tree with a tree in the place of every comparison. -/
def graftAll (f : Leaf → Condition) : List Condition → List Condition
  | [] => []
  | c :: rest => graft f c :: graftAll f rest

end

@[simp] theorem graftAll_eq_map (f : Leaf → Condition) (children : List Condition) :
    graftAll f children = children.map (graft f) := by
  induction children with
  | nil => rfl
  | cons c rest ih => rw [graftAll, ih, List.map_cons]

/-- The comparisons are those of the trees put in the place of the comparisons, in order. -/
theorem leaves_graft (f : Leaf → Condition) (c : Condition) : (c.graft f).leaves = c.leaves.flatMap fun l => (f l).leaves := by
  induction c using Condition.induct with
  | leaf l => simp [graft, leaves]
  | group logic children ih =>
    rw [graft, leaves, leaves, leavesAll_eq_flatMap, leavesAll_eq_flatMap, graftAll_eq_map, List.flatMap_map,
      List.flatMap_assoc]
    exact List.flatMap_congr ih

end Condition

/-- A tree keeps its meaning when its comparisons are replaced by trees of the same meaning. -/
theorem Context.satisfies_graft {ctx : Context} {f : Leaf → Condition} {c : Condition}
    (h : ∀ l ∈ c.leaves, ctx.satisfies (f l) = ctx.matchesLeaf l) : ctx.satisfies (c.graft f) = ctx.satisfies c := by
  induction c using Condition.induct with
  | leaf l => exact h l (List.mem_singleton.2 rfl)
  | group logic children ih =>
    have hchildren : ∀ d ∈ children, ctx.satisfies (d.graft f) = ctx.satisfies d := by
      intro d hd
      refine ih d hd fun l hl => h l ?_
      rw [Condition.leaves, Condition.leavesAll_eq_flatMap]
      exact List.mem_flatMap.2 ⟨d, hd, hl⟩
    rw [Condition.graft, Condition.graftAll_eq_map]
    cases logic with
    | all =>
      rw [satisfies, satisfies, satisfiesAll_eq_all, satisfiesAll_eq_all, List.all_map, Bool.eq_iff_iff, List.all_eq_true,
        List.all_eq_true]
      exact forall₂_congr fun d hd => by rw [Function.comp_apply, hchildren d hd]
    | any =>
      rw [satisfies, satisfies, satisfiesAny_eq_any, satisfiesAny_eq_any, List.any_map, Bool.eq_iff_iff, List.any_eq_true,
        List.any_eq_true]
      exact exists_congr fun d => and_congr_right fun hd => by rw [Function.comp_apply, hchildren d hd]

/-! ## Comparisons written out -/

/-- The comparisons of a field with several literals. -/
def Leaf.withEach (field : String) (op : Operator) (items : List Literal) : List Condition :=
  items.map fun v => .leaf (.withLiteral field op v)

/-- A comparison with a list as comparisons with single literals: a range as an all-group of two comparisons of order, `in` as an
any-group of equalities, `not_in` as an all-group of inequalities. Any other comparison, and `not_in` of the empty list, stays. -/
def Leaf.writtenOut (l : Leaf) : Condition :=
  match l.op, l.right with
  | .between, .literal (.list [low, high]) =>
    .all [.leaf (.withLiteral l.field .gte low), .leaf (.withLiteral l.field .lte high)]
  | .isIn, .literal (.list items) => .any (Leaf.withEach l.field .eq items)
  | .notIn, .literal (.list (v :: rest)) => .all (Leaf.withEach l.field .ne (v :: rest))
  | _, _ => .leaf l

/-- The condition with every comparison written out. -/
def Condition.writtenOut (c : Condition) : Condition := c.graft Leaf.writtenOut

namespace Comparison

variable {v : Value}

/-- A value lies between two bounds when it is not below the one and not above the other. -/
theorem holds_between {low high : Literal} {x y : Float} (hlow : low.asNumber = some x) (hhigh : high.asNumber = some y)
    (v : Value) : holds v .between (.list [low, high]) = (holds v .gte low && holds v .lte high) := by
  have hbounds : (Literal.list [low, high]).asBounds = some (x, y) := by
    rw [Literal.asBounds, hlow, hhigh]
    rfl
  have hx : rightNumber low = .ok x := by rw [rightNumber, hlow]
  have hy : rightNumber high = .ok y := by rw [rightNumber, hhigh]
  rw [holds, holds, holds, compare, compare, compare, between, hbounds, numbers, numbers, hx, hy]
  cases leftNumber v <;> rfl

/-- A value is in a list when it equals one of the items. -/
theorem holds_isIn (v : Value) (items : List Literal) : holds v .isIn (.list items) = items.any (holds v .eq) := rfl

/-- A value is not in a list of literals that fit it when it differs from each of the items. -/
theorem holds_notIn_of_fits {d : Descriptor} (hv : d.Holds v) {items : List Literal} (hfits : ∀ w ∈ items, d.fits w = true) :
    holds v .notIn (.list items) = items.all (holds v .ne) := by
  rw [holds_notIn, holds_isIn, List.not_any_eq_all_not, Bool.eq_iff_iff, List.all_eq_true, List.all_eq_true]
  refine forall₂_congr fun w hw => ?_
  obtain ⟨b, hb⟩ := exists_equal hv (hfits w hw)
  rw [holds_ne hb]

end Comparison

namespace Context

variable (ctx : Context)

/-- A comparison with a literal matches when the field is there and compares. -/
theorem matchesLeaf_withLiteral {op : Operator} (hcross : op.isCross = false) (field : String) (v : Literal) :
    ctx.matchesLeaf (.withLiteral field op v) = (ctx.present? field).any (Comparison.holds · op v) := by
  rw [matchesLeaf_eq ctx (l := .withLiteral field op v) hcross, Leaf.withLiteral, operand?]
  cases ctx.present? field <;> rfl

/-- Some of several comparisons of a field match when it is there and compares with one of the literals. -/
theorem satisfies_any_withEach {op : Operator} (hcross : op.isCross = false) (field : String) (items : List Literal) :
    ctx.satisfies (.any (Leaf.withEach field op items)) =
      (ctx.present? field).any fun w => items.any (Comparison.holds w op) := by
  have heach : ctx.satisfies ∘ (fun v => Condition.leaf (.withLiteral field op v)) =
      fun v => (ctx.present? field).any (Comparison.holds · op v) :=
    funext fun v => ctx.matchesLeaf_withLiteral hcross field v
  rw [Condition.any, satisfies, satisfiesAny_eq_any, Leaf.withEach, List.any_map, heach]
  cases ctx.present? field <;> simp

/-- All of several comparisons of a field, of which there is one, match when it is there and compares with all literals. -/
theorem satisfies_all_withEach {op : Operator} (hcross : op.isCross = false) (field : String) {items : List Literal}
    (hitems : items ≠ []) :
    ctx.satisfies (.all (Leaf.withEach field op items)) =
      (ctx.present? field).any fun w => items.all (Comparison.holds w op) := by
  have heach : ctx.satisfies ∘ (fun v => Condition.leaf (.withLiteral field op v)) =
      fun v => (ctx.present? field).any (Comparison.holds · op v) :=
    funext fun v => ctx.matchesLeaf_withLiteral hcross field v
  rw [Condition.all, satisfies, satisfiesAll_eq_all, Leaf.withEach, List.all_map, heach]
  cases ctx.present? field with
  | some w => rfl
  | none =>
    obtain ⟨v, rest, rfl⟩ := List.exists_cons_of_ne_nil hitems
    rfl

end Context

/-! ## Accepted comparisons written out -/

namespace Descriptor

variable {d : Descriptor}

/-- A field that can be tested for a range holds numbers and can be compared with each bound. -/
theorem of_supports_between (hd : d ∈ Catalog.all) (h : d.supports .between = true) :
    d.isNumeric = true ∧ d.supports .gte = true ∧ d.supports .lte = true := by
  have hall : ∀ d ∈ Catalog.all, d.supports .between = true →
      d.isNumeric = true ∧ d.supports .gte = true ∧ d.supports .lte = true := by decide
  exact hall d hd h

/-- A field that can be looked up in a list can be compared with each item. -/
theorem of_supports_list (hd : d ∈ Catalog.all) (h : d.supports .isIn = true ∨ d.supports .notIn = true) :
    d.supports .eq = true ∧ d.supports .ne = true := by
  have hall : ∀ d ∈ Catalog.all, d.supports .isIn = true ∨ d.supports .notIn = true →
      d.supports .eq = true ∧ d.supports .ne = true := by decide
  exact hall d hd h

/-- What reads as a number fits a field of numbers. -/
theorem fits_of_asNumber (hd : d.isNumeric = true) {v : Literal} {x : Float} (hv : v.asNumber = some x) : d.fits v = true := by
  cases v with
  | number y => exact hd
  | text s => rw [fits, hv, Option.isSome_some, Bool.or_true]
  | list items => exact absurd hv.symm (Option.some_ne_none x)

end Descriptor

namespace Leaf

/-- The registry accepts the comparison. -/
def Accepted (l : Leaf) : Prop := Registry.builtin.leafReason? l = none

/-- A comparison of a field with a literal that fits it is accepted, if the field has the operator. -/
theorem accepted_of_fits {field : String} {d : Descriptor} (hd : Registry.builtin.resolve? field = some d) {op : Operator}
    (hop : d.supports op = true) (hlist : op.takesList = false) (hcontains : op ≠ .contains) {v : Literal}
    (hv : d.fits v = true) : (withLiteral field op v).Accepted := by
  refine (Registry.builtin.leafReason?_eq_none_iff _).2 ⟨d, hd, hop, ?_⟩
  exact (Descriptor.literalReason?_eq_none_iff hlist hcontains).2 hv

/-- What an accepted comparison is written out to, case by case: one without a list is left, a range is of two numbers, and the
items of any other list fit the field. -/
theorem writtenOut_cases {P : Leaf → Condition → Prop}
    (single : ∀ l : Leaf, l.Accepted → l.op.takesList = false → P l (.leaf l))
    (between : ∀ field d low high x y, Registry.builtin.resolve? field = some d → d.supports .between = true →
      low.asNumber = some x → high.asNumber = some y →
      P (.withLiteral field .between (.list [low, high]))
        (.all [.leaf (.withLiteral field .gte low), .leaf (.withLiteral field .lte high)]))
    (isIn : ∀ field d items, Registry.builtin.resolve? field = some d → d.supports .isIn = true →
      (∀ v ∈ items, d.fits v = true) → P (.withLiteral field .isIn (.list items)) (.any (withEach field .eq items)))
    (notIn : ∀ field d items, Registry.builtin.resolve? field = some d → d.supports .notIn = true → items ≠ [] →
      (∀ v ∈ items, d.fits v = true) → P (.withLiteral field .notIn (.list items)) (.all (withEach field .ne items)))
    (notInNone : ∀ field, (withLiteral field .notIn (.list [])).Accepted →
      P (.withLiteral field .notIn (.list [])) (.leaf (.withLiteral field .notIn (.list []))))
    {l : Leaf} (haccepted : l.Accepted) : P l l.writtenOut := by
  by_cases hlist : l.op.takesList = true
  · obtain ⟨d, hd, hop, hright⟩ := (Registry.builtin.leafReason?_eq_none_iff l).1 haccepted
    obtain ⟨field, op, right⟩ := l
    cases right with
    | field other => exact absurd (hlist.symm.trans hright.2.1) (by decide)
    | literal v =>
      dsimp only at hop hright hlist
      cases op
      case between =>
        have hbounds : v.asBounds ≠ none := by simpa [Descriptor.literalReason?] using hright
        obtain ⟨⟨x, y⟩, hbounds⟩ := Option.ne_none_iff_exists'.1 hbounds
        obtain ⟨low, high, rfl, hlow, hhigh⟩ := bounds_of_asBounds hbounds
        exact between field d low high x y hd hop hlow hhigh
      case isIn =>
        obtain ⟨items, rfl, hfits⟩ := fits_of_list (.inl rfl) hright
        exact isIn field d items hd hop hfits
      case notIn =>
        obtain ⟨items, rfl, hfits⟩ := fits_of_list (.inr rfl) hright
        cases items with
        | nil => exact notInNone field haccepted
        | cons v rest => exact notIn field d (v :: rest) hd hop (List.cons_ne_nil v rest) hfits
      all_goals exact absurd hlist (by decide)
  · have hself : l.writtenOut = .leaf l := by
      obtain ⟨field, op, right⟩ := l
      cases op <;> first | rfl | exact absurd rfl hlist
    rw [hself]
    exact single l haccepted (Bool.eq_false_iff.2 hlist)

/-- The comparisons that a comparison with several literals is made of. -/
theorem mem_leaves_withEach {logic : Logic} {field : String} {op : Operator} {items : List Literal} {k : Leaf} :
    k ∈ (Condition.group logic (withEach field op items)).leaves ↔ ∃ v ∈ items, k = .withLiteral field op v := by
  simp [Condition.leaves, withEach, List.mem_flatMap]

/-- An accepted comparison written out matches where it matches itself. -/
theorem satisfies_writtenOut {ctx : Context} (hctx : ctx.Typed) {l : Leaf} (haccepted : l.Accepted) :
    ctx.satisfies l.writtenOut = ctx.matchesLeaf l := by
  refine writtenOut_cases (P := fun l c => ctx.satisfies c = ctx.matchesLeaf l) ?_ ?_ ?_ ?_ ?_ haccepted
  · intro l _ _
    rfl
  · intro field d low high x y _ _ hlow hhigh
    rw [Condition.all, Context.satisfies, ctx.satisfiesAll_eq_all, List.all_cons, List.all_cons, List.all_nil, Bool.and_true,
      Context.satisfies, Context.satisfies, ctx.matchesLeaf_withLiteral rfl, ctx.matchesLeaf_withLiteral rfl,
      ctx.matchesLeaf_withLiteral rfl]
    cases ctx.present? field with
    | none => rfl
    | some v => exact (Comparison.holds_between hlow hhigh v).symm
  · intro field d items _ _ _
    rw [ctx.satisfies_any_withEach rfl, ctx.matchesLeaf_withLiteral rfl]
    rfl
  · intro field d items hd _ hitems hfits
    rw [ctx.satisfies_all_withEach rfl field hitems, ctx.matchesLeaf_withLiteral rfl]
    cases hv : ctx.present? field with
    | none => rfl
    | some v => exact (Comparison.holds_notIn_of_fits (hctx field d v hd hv) hfits).symm
  · intro field _
    rfl

/-- The comparisons that an accepted comparison is written out to are accepted. -/
theorem accepted_writtenOut {l : Leaf} (haccepted : l.Accepted) : ∀ k ∈ l.writtenOut.leaves, k.Accepted := by
  refine writtenOut_cases (P := fun _ c => ∀ k ∈ c.leaves, k.Accepted) ?_ ?_ ?_ ?_ ?_ haccepted
  · intro l hl _ k hk
    rwa [List.mem_singleton.1 hk]
  · intro field d low high x y hd hop hlow hhigh k hk
    obtain ⟨hnumeric, hgte, hlte⟩ := Descriptor.of_supports_between (Registry.mem_of_resolve? hd).1 hop
    rcases List.mem_cons.1 hk with rfl | hk
    · exact accepted_of_fits hd hgte rfl (by decide) (Descriptor.fits_of_asNumber hnumeric hlow)
    · rw [List.mem_singleton.1 hk]
      exact accepted_of_fits hd hlte rfl (by decide) (Descriptor.fits_of_asNumber hnumeric hhigh)
  · intro field d items hd hop hfits k hk
    obtain ⟨v, hv, rfl⟩ := mem_leaves_withEach.1 hk
    exact accepted_of_fits hd (Descriptor.of_supports_list (Registry.mem_of_resolve? hd).1 (.inl hop)).1 rfl (by decide)
      (hfits v hv)
  · intro field d items hd hop _ hfits k hk
    obtain ⟨v, hv, rfl⟩ := mem_leaves_withEach.1 hk
    exact accepted_of_fits hd (Descriptor.of_supports_list (Registry.mem_of_resolve? hd).1 (.inr hop)).2 rfl (by decide)
      (hfits v hv)
  · intro field hnone k hk
    rwa [List.mem_singleton.1 hk]

/-- No list is left in what an accepted comparison is written out to, unless it is the empty one of `not_in`. -/
theorem eq_of_takesList_writtenOut {l : Leaf} (haccepted : l.Accepted) :
    ∀ k ∈ l.writtenOut.leaves, k.op.takesList = true → k.op = .notIn ∧ k.right = .literal (.list []) := by
  refine writtenOut_cases (P := fun _ c => ∀ k ∈ c.leaves, k.op.takesList = true → k.op = .notIn ∧
    k.right = .literal (.list [])) ?_ ?_ ?_ ?_ ?_ haccepted
  · intro l _ hlist k hk htakes
    rw [List.mem_singleton.1 hk, hlist] at htakes
    exact absurd htakes (by decide)
  · intro field d low high x y _ _ _ _ k hk htakes
    rcases List.mem_cons.1 hk with rfl | hk
    · exact absurd htakes (by decide : ¬Operator.gte.takesList = true)
    · rw [List.mem_singleton.1 hk] at htakes
      exact absurd htakes (by decide : ¬Operator.lte.takesList = true)
  · intro field d items _ _ _ k hk htakes
    obtain ⟨v, -, rfl⟩ := mem_leaves_withEach.1 hk
    exact absurd htakes (by decide : ¬Operator.eq.takesList = true)
  · intro field d items _ _ _ _ k hk htakes
    obtain ⟨v, -, rfl⟩ := mem_leaves_withEach.1 hk
    exact absurd htakes (by decide : ¬Operator.ne.takesList = true)
  · intro field _ k hk _
    rw [List.mem_singleton.1 hk]
    exact ⟨rfl, rfl⟩

end Leaf

/-- The operators of lists are shorthand. A condition that the registry accepts means the same with every range written as two
comparisons of order, every `in` as one of several equalities and every `not_in` of a list that is not empty as all of several
inequalities, wherever they stand, in every context that has values of its fields only. Written out the condition is accepted
as well, and has no operator of lists left but `not_in` of the empty list. -/
theorem list_operators_are_shorthand {c : Condition} (haccepted : Registry.builtin.issues c = []) :
    (∀ ctx : Context, ctx.Typed → ctx.satisfies c.writtenOut = ctx.satisfies c) ∧
    Registry.builtin.issues c.writtenOut = [] ∧
    ∀ l ∈ c.writtenOut.leaves, l.op.takesList = true → l.op = .notIn ∧ l.right = .literal (.list []) := by
  have hleaves : ∀ l ∈ c.leaves, l.Accepted := (Registry.builtin.issues_eq_nil_iff c).1 haccepted
  have hmem : ∀ {k : Leaf}, k ∈ c.writtenOut.leaves → ∃ l ∈ c.leaves, k ∈ l.writtenOut.leaves := by
    intro k hk
    rwa [Condition.writtenOut, Condition.leaves_graft, List.mem_flatMap] at hk
  refine ⟨fun ctx hctx => ?_, (Registry.builtin.issues_eq_nil_iff _).2 fun k hk => ?_, fun k hk => ?_⟩
  · exact Context.satisfies_graft fun l hl => Leaf.satisfies_writtenOut hctx (hleaves l hl)
  · obtain ⟨l, hl, hk⟩ := hmem hk
    exact Leaf.accepted_writtenOut (hleaves l hl) k hk
  · obtain ⟨l, hl, hk⟩ := hmem hk
    exact Leaf.eq_of_takesList_writtenOut (hleaves l hl) k hk

/-- Stocks that cost five to thirty times their earnings and are of one of two industries, and not of two symbols. -/
def pricedBanks : Condition :=
  .all [.leaf (.withLiteral "pe" .between (.list [.text "5", .number 30.0])),
    .leaf (.withLiteral "industry" .isIn (.list [.text "Banking", .text "Insurance"])),
    .any [.leaf (.withLiteral "symbol" .notIn (.list [.text "B", .text "C"]))]]

/-- The bank is one of them by the condition written out, whose bounds, industries and symbols are compared one by one. -/
theorem pricedBanks_written_out :
    (Context.snapshot bank.snapshot).satisfies
      (.all [.all [.leaf (.withLiteral "pe" .gte (.text "5")), .leaf (.withLiteral "pe" .lte (.number 30.0))],
        .any [.leaf (.withLiteral "industry" .eq (.text "Banking")),
          .leaf (.withLiteral "industry" .eq (.text "Insurance"))],
        .any [.all [.leaf (.withLiteral "symbol" .ne (.text "B")), .leaf (.withLiteral "symbol" .ne (.text "C"))]]]) =
      true := by
  have haccepted : Registry.builtin.issues pricedBanks = [] := rfl
  have hbank : (Context.snapshot bank.snapshot).satisfies pricedBanks = true := by decide +kernel
  exact ((list_operators_are_shorthand haccepted).1 _ (Context.typed_snapshot bank)).trans hbank

end EquityScreen
