import Mathlib.Data.List.Basic
import EquityScreen.Evaluation.Condition
import EquityScreen.Field.Validation

/-!
# Trees of comparisons

Each function on trees is given by what it does to the comparisons of the tree. A tree is valid when each of its comparisons
is (`issues_eq_nil_iff`, `leafReason?_eq_none_iff`), and a flat tree holds when all of its comparisons do (`satisfies_of_flat`).
-/

namespace EquityScreen

open Condition

/-- Induction over literals: what holds of numbers, of texts and of a list whose items it holds of, holds of every literal. -/
theorem Literal.induct {P : Literal → Prop} (number : ∀ x, P (.number x)) (text : ∀ s, P (.text s))
    (list : ∀ items, (∀ l ∈ items, P l) → P (.list items)) (l : Literal) : P l := by
  refine Literal.rec (motive_2 := fun items => ∀ l ∈ items, P l) number text list ?_ ?_ l
  · simp
  · intro l rest hl hrest k hk
    rcases List.mem_cons.1 hk with rfl | hk
    · exact hl
    · exact hrest k hk

@[simp] theorem Literal.mapNumbersAll_eq_map (f : Float → Float) (items : List Literal) :
    Literal.mapNumbersAll f items = items.map (Literal.mapNumbers f) := by
  induction items with
  | nil => rfl
  | cons l rest ih => rw [Literal.mapNumbersAll, ih, List.map_cons]

namespace Condition

/-- Induction over trees: what holds of comparisons, and of a group whose conditions it holds of, holds of every tree. -/
theorem induct {P : Condition → Prop} (leaf : ∀ l, P (.leaf l))
    (group : ∀ logic children, (∀ c ∈ children, P c) → P (.group logic children)) (c : Condition) : P c := by
  refine Condition.rec (motive_2 := fun children => ∀ c ∈ children, P c) leaf group ?_ ?_ c
  · simp
  · intro c rest hc hrest d hd
    rcases List.mem_cons.1 hd with rfl | hd
    · exact hc
    · exact hrest d hd

@[simp] theorem leavesAll_eq_flatMap (children : List Condition) : leavesAll children = children.flatMap leaves := by
  induction children with
  | nil => rfl
  | cons c rest ih => rw [leavesAll, ih, List.flatMap_cons]

@[simp] theorem mapLeavesAll_eq_map (f : Leaf → Leaf) (children : List Condition) :
    mapLeavesAll f children = children.map (mapLeaves f) := by
  induction children with
  | nil => rfl
  | cons c rest ih => rw [mapLeavesAll, ih, List.map_cons]

/-- The comparisons of a changed tree are the changed comparisons of the tree. -/
theorem leaves_mapLeaves (f : Leaf → Leaf) (c : Condition) : (c.mapLeaves f).leaves = c.leaves.map f := by
  induction c using Condition.induct with
  | leaf l => rfl
  | group logic children ih =>
    rw [mapLeaves, leaves, leaves, leavesAll_eq_flatMap, leavesAll_eq_flatMap, mapLeavesAll_eq_map, List.flatMap_map,
      List.map_flatMap]
    exact List.flatMap_congr ih

/-- A tree changed twice is changed once, by both. -/
theorem mapLeaves_mapLeaves (f g : Leaf → Leaf) (c : Condition) : (c.mapLeaves f).mapLeaves g = c.mapLeaves (g ∘ f) := by
  induction c using Condition.induct with
  | leaf l => rfl
  | group logic children ih =>
    simp only [mapLeaves, mapLeavesAll_eq_map, List.map_map]
    exact congrArg (Condition.group logic) (List.map_congr_left ih)

/-- The comparisons of a changed tree are listed changed. -/
theorem flatLeaves?_mapLeaves (f : Leaf → Leaf) (c : Condition) :
    (c.mapLeaves f).flatLeaves? = c.flatLeaves?.map (List.map f) := by
  have hchildren : ∀ children : List Condition,
      (children.map (mapLeaves f)).mapM asLeaf? = (children.mapM asLeaf?).map (List.map f) := by
    intro children
    induction children with
    | nil => rfl
    | cons ch rest ih =>
      rw [List.map_cons, List.mapM_cons, List.mapM_cons, ih]
      cases ch with
      | leaf l => cases rest.mapM asLeaf? <;> rfl
      | group => rfl
  cases c with
  | leaf l => rfl
  | group logic children =>
    rw [mapLeaves, mapLeavesAll_eq_map]
    cases logic with
    | all => exact hchildren children
    | any => rfl

/-- The comparisons of a flat group are its conditions. -/
theorem leaves_of_asLeaf {children : List Condition} {ls : List Leaf} (h : children.mapM asLeaf? = some ls) :
    children = ls.map .leaf := by
  induction children generalizing ls with
  | nil =>
    obtain rfl : [] = ls := by simpa using h
    rfl
  | cons c rest ih =>
    cases c with
    | group logic children => simp [asLeaf?] at h
    | leaf l =>
      obtain ⟨ls', hrest, hls⟩ : ∃ ls', rest.mapM asLeaf? = some ls' ∧ some (l :: ls') = some ls := by
        simpa [asLeaf?, Option.bind_eq_some_iff] using h
      obtain rfl := Option.some.inj hls
      rw [List.map_cons, ← ih hrest]

/-- A flat tree is one comparison or an all-group of comparisons, in order. -/
theorem flatLeaves?_eq_some {c : Condition} {ls : List Leaf} (h : c.flatLeaves? = some ls) :
    (∃ l, c = .leaf l ∧ ls = [l]) ∨ c = .all (ls.map .leaf) := by
  cases c with
  | leaf l => exact .inl ⟨l, rfl, (Option.some.inj h).symm⟩
  | group logic children =>
    cases logic with
    | all => exact .inr (congrArg (Condition.group .all) (leaves_of_asLeaf h))
    | any => exact absurd h (by simp [flatLeaves?])

/-- The flat list of a tree is the list of its comparisons. -/
theorem leaves_of_flat {c : Condition} {ls : List Leaf} (h : c.flatLeaves? = some ls) : c.leaves = ls := by
  rcases flatLeaves?_eq_some h with ⟨l, rfl, rfl⟩ | rfl
  · rfl
  · simp [Condition.all, leaves, List.flatMap_map]

end Condition

namespace Context

variable (ctx : Context)

@[simp] theorem satisfiesAll_eq_all (children : List Condition) : ctx.satisfiesAll children = children.all ctx.satisfies := by
  induction children with
  | nil => rfl
  | cons c rest ih => rw [satisfiesAll, ih, List.all_cons]

@[simp] theorem satisfiesAny_eq_any (children : List Condition) : ctx.satisfiesAny children = children.any ctx.satisfies := by
  induction children with
  | nil => rfl
  | cons c rest ih => rw [satisfiesAny, ih, List.any_cons]

/-- A flat tree holds when all of its comparisons match. -/
theorem satisfies_of_flat {c : Condition} {ls : List Leaf} (h : c.flatLeaves? = some ls) :
    ctx.satisfies c = ls.all ctx.matchesLeaf := by
  rcases flatLeaves?_eq_some h with ⟨l, rfl, rfl⟩ | rfl
  · simp [satisfies]
  · rw [Condition.all, satisfies, satisfiesAll_eq_all, List.all_map]
    rfl

end Context

namespace Registry

variable (r : Registry)

/-- A comparison is accepted when its field is known and has the operator, and its right side is an accepted literal or, for the
operators that compare two values, a field of the same kind. -/
theorem leafReason?_eq_none_iff (l : Leaf) : r.leafReason? l = none ↔
    ∃ d, r.resolve? l.field = some d ∧ d.supports l.op = true ∧
      match l.right with
      | .literal v => d.literalReason? l.op v = none
      | .field other =>
        (r.resolve? other).any (·.kind == d.kind) = true ∧ l.op.takesList = false ∧ l.op ≠ .contains := by
  rw [leafReason?]
  cases r.resolve? l.field with
  | none => simp
  | some d =>
    cases hop : d.supports l.op with
    | false => simp [hop]
    | true => cases l.right <;> simp [hop, and_assoc]

/-- The issues of conditions are those of each, under its number. -/
theorem issuesFrom_eq_flatMap (up : List Nat) (i : Nat) (children : List Condition) :
    r.issuesFrom up i children = (children.zipIdx i).flatMap fun e => r.issuesAt (e.2 :: up) e.1 := by
  induction children generalizing i with
  | nil => rfl
  | cons c rest ih => rw [issuesFrom, ih, List.zipIdx_cons, List.flatMap_cons]

/-- A tree has no issue when none of its comparisons is refused. -/
theorem issuesAt_eq_nil_iff (c : Condition) (up : List Nat) :
    r.issuesAt up c = [] ↔ ∀ l ∈ c.leaves, r.leafReason? l = none := by
  induction c using Condition.induct generalizing up with
  | leaf l =>
    rw [issuesAt, leaves]
    cases hl : r.leafReason? l <;> simp [hl]
  | group logic children ih =>
    rw [issuesAt, issuesFrom_eq_flatMap, List.flatMap_eq_nil_iff, leaves, leavesAll_eq_flatMap]
    constructor
    · intro h l hl
      obtain ⟨c, hc, hlc⟩ := List.mem_flatMap.1 hl
      obtain ⟨j, hj⟩ := List.getElem?_of_mem hc
      exact (ih c hc _).1 (h (c, j) (List.mk_mem_zipIdx_iff_getElem?.2 hj)) l hlc
    · intro h e he
      have hc := List.fst_mem_of_mem_zipIdx he
      exact (ih e.1 hc _).2 fun l hl => h l (List.mem_flatMap.2 ⟨e.1, hc, hl⟩)

theorem issues_eq_nil_iff (c : Condition) : r.issues c = [] ↔ ∀ l ∈ c.leaves, r.leafReason? l = none :=
  r.issuesAt_eq_nil_iff c []

/-- Sort keys have no issue when the registry knows each of their fields. -/
theorem sortIssues_eq_nil_iff (keys : List SortKey) :
    r.sortIssues keys = [] ↔ ∀ k ∈ keys, (r.resolve? k.field).isSome = true := by
  rw [sortIssues, List.filterMap_eq_nil_iff]
  constructor
  · intro h k hk
    obtain ⟨i, hi, rfl⟩ := List.getElem_of_mem hk
    have hnone := h (keys[i], i) (List.mk_mem_zipIdx_iff_getElem?.2 (List.getElem?_eq_getElem hi))
    by_contra hunknown
    simp [hunknown] at hnone
  · rintro h ⟨k, i⟩ hk
    simp [h k (List.fst_mem_of_mem_zipIdx hk)]

end Registry
end EquityScreen
