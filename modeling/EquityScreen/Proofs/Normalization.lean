import EquityScreen.Proofs.Lemmas.Names
import EquityScreen.Proofs.Lemmas.Orders
import EquityScreen.Screening.Service

/-!
# Names are brought to the registry once

The service normalizes what it is asked, the filter and the sorts of the store normalize what they are given, and the plan
looks at canonical names. Doing so again changes nothing: a condition and sort keys that have been normalized are normalized,
the store makes the same filter and the same sorts of them, and a plan depends only on the set of canonical names
(`referencedFields_congr`). So each number of a literal for `market_cap` is divided once however often its comparison is
normalized (`normalized_once`).
-/

namespace EquityScreen

/-! ## Numbers of a literal -/

namespace Literal

mutual

/-- The numbers of a literal, those inside lists too, from left to right. -/
def numbers : Literal → List Float
  | number x => [x]
  | text _ => []
  | list items => numbersAll items

/-- The numbers of literals, from left to right. -/
def numbersAll : List Literal → List Float
  | [] => []
  | item :: rest => numbers item ++ numbersAll rest

end

@[simp] theorem numbersAll_eq_flatMap (items : List Literal) : numbersAll items = items.flatMap numbers := by
  induction items with
  | nil => rfl
  | cons l rest ih => rw [numbersAll, ih, List.flatMap_cons]

/-- The numbers of a changed literal are the changed numbers of the literal. -/
theorem numbers_mapNumbers (f : Float → Float) (v : Literal) : (v.mapNumbers f).numbers = v.numbers.map f := by
  induction v using Literal.induct with
  | number x => rfl
  | text s => rfl
  | list items ih =>
    rw [mapNumbers, numbers, numbers, mapNumbersAll_eq_map, numbersAll_eq_flatMap, numbersAll_eq_flatMap, List.flatMap_map,
      List.map_flatMap]
    exact List.flatMap_congr ih

/-- The numbers of a literal under the names of the registry. -/
theorem numbers_normalizeLiteral (field : String) (v : Literal) :
    (normalizeLiteral field v).numbers = if field = "market_cap" then v.numbers.map (· / 10000.0) else v.numbers := by
  rw [normalizeLiteral]
  split
  · exact numbers_mapNumbers _ v
  · rfl

end Literal

/-- Whether once or more often, a comparison is normalized to the same. -/
theorem Leaf.iterate_normalize (l : Leaf) (n : Nat) : Leaf.normalize^[n + 1] l = l.normalize := by
  rw [Function.iterate_succ_apply]
  exact Function.iterate_fixed l.normalize_normalize n

/-! ## Names -/

/-- A normalized comparison names the canonical names of the fields. -/
theorem Leaf.fields_normalize (l : Leaf) : l.normalize.fields = l.fields.map canonicalName := by
  obtain ⟨field, op, right⟩ := l
  cases right <;> rfl

/-- A normalized condition and normalized sort keys name the canonical names of the fields. -/
theorem Condition.namesWith_normalize (c : Condition) (keys : List SortKey) :
    c.normalize.namesWith (keys.map SortKey.normalize) = (c.namesWith keys).map canonicalName := by
  simp only [namesWith, normalize, leaves_mapLeaves, List.flatMap_map, Leaf.fields_normalize, List.map_append,
    List.map_flatMap, List.map_map]
  rfl

/-- Both conditions, each with its sort keys, name the same fields, however each of them spells a field. -/
def NameTheSame (c : Condition) (keys : List SortKey) (c' : Condition) (keys' : List SortKey) : Prop :=
  ∀ name, name ∈ (c.namesWith keys).map canonicalName ↔ name ∈ (c'.namesWith keys').map canonicalName

/-- Where the same fields are named, the same fields are referred to: they are listed in order, each once. -/
theorem referencedFields_congr {c c' : Condition} {keys keys' : List SortKey} (h : NameTheSame c keys c' keys') :
    referencedFields c keys = referencedFields c' keys' := by
  refine Named.eq_of_sorted (Text.pairwise_sortNames _) (Text.pairwise_sortNames _) fun name => ?_
  exact mem_referencedFields_iff.trans ((h name).trans mem_referencedFields_iff.symm)

theorem nameTheSame_normalize (c : Condition) (keys : List SortKey) :
    NameTheSame c.normalize (keys.map SortKey.normalize) c keys := by
  intro name
  have hcanonical : canonicalName ∘ canonicalName = canonicalName := funext canonicalName_canonicalName
  rw [Condition.namesWith_normalize, List.map_map, hcanonical]

namespace Registry

variable (r : Registry)

/-- The registry has one plan for both: who answers, whether the client allows the store or not, and what the screen needs
when it is computed. -/
structure PlansAlike (c : Condition) (keys : List SortKey) (c' : Condition) (keys' : List SortKey) : Prop where
  fields : referencedFields c keys = referencedFields c' keys'
  plan : r.plan c keys = r.plan c' keys'
  hint : ∀ preferPushdown, r.planWithHint c keys preferPushdown = r.planWithHint c' keys' preferPushdown
  analyze : r.analyze c keys = r.analyze c' keys'

/-- A plan looks at nothing but the fields that are referred to. -/
theorem plansAlike {c c' : Condition} {keys keys' : List SortKey} (h : NameTheSame c keys c' keys') :
    r.PlansAlike c keys c' keys' := by
  have hfields := referencedFields_congr h
  have hplan : r.plan c keys = r.plan c' keys' := by rw [plan, plan, hfields]
  refine ⟨hfields, hplan, fun preferPushdown => ?_, ?_⟩
  · rw [planWithHint, planWithHint, hplan]
  · rw [analyze, analyze, hfields]

/-! ## The filter and the sorts of the store -/

/-- The filter of normalized comparisons is that of the comparisons. -/
theorem filterOf_normalize (ls : List Leaf) : r.filterOf (ls.map Leaf.normalize) = r.filterOf ls := by
  rw [filterOf, filterOf, List.mapM_map]
  exact congrArg (fun f => ls.mapM f) (funext fun l => congrArg r.predicate l.normalize_normalize)

/-- The filter of a normalized tree is that of the tree. -/
theorem pushdown_normalize (c : Condition) : r.pushdown c.normalize = r.pushdown c := by
  rw [pushdown, pushdown, Condition.normalize, Condition.flatLeaves?_mapLeaves]
  cases c.flatLeaves? with
  | none => rfl
  | some ls => exact r.filterOf_normalize ls

end Registry

/-- The sorts of normalized sort keys are those of the sort keys. -/
theorem columnSorts_normalize (keys : List SortKey) : columnSorts (keys.map SortKey.normalize) = columnSorts keys := by
  rw [columnSorts_eq, columnSorts_eq, normalize_keys]

/-- A normalized request is answered as the request is, with the same calls. -/
theorem Screener.run_normalize (s : Screener) (today : Date) (q : Request) :
    s.run today { q with conditions := q.conditions.normalize, orderBy := q.orderBy.map SortKey.normalize } =
      s.run today q := by
  simp only [run, Condition.normalize_normalize, normalize_keys]
  rfl

/-- A second normalization changes nothing. Conditions and sort keys that are normalized are so for good; the store makes the
same filter, or refuses with the same error, and the same sorts of what is normalized and of what is not; and whatever names
the same fields, as the normalized does, has one plan. However often a comparison with a literal has been normalized, the
numbers of the literal are those it had, each divided once where they were given for `market_cap`. -/
theorem normalized_once (r : Registry) (c : Condition) (ls : List Leaf) (keys : List SortKey) :
    (c.normalize.normalize = c.normalize ∧
      (keys.map SortKey.normalize).map SortKey.normalize = keys.map SortKey.normalize) ∧
    (r.filterOf (ls.map Leaf.normalize) = r.filterOf ls ∧ r.pushdown c.normalize = r.pushdown c ∧
      columnSorts (keys.map SortKey.normalize) = columnSorts keys) ∧
    r.PlansAlike c.normalize (keys.map SortKey.normalize) c keys ∧
    (∀ c' keys', NameTheSame c' keys' c keys → r.PlansAlike c' keys' c keys) ∧
    ∀ field op v n, ∃ w, Leaf.normalize^[n + 1] (.withLiteral field op v) = .withLiteral (canonicalName field) op w ∧
      w.numbers = if field = "market_cap" then v.numbers.map (· / 10000.0) else v.numbers := by
  refine ⟨⟨c.normalize_normalize, normalize_keys keys⟩,
    ⟨r.filterOf_normalize ls, r.pushdown_normalize c, columnSorts_normalize keys⟩,
    r.plansAlike (nameTheSame_normalize c keys), fun c' keys' h => r.plansAlike h, fun field op v n => ?_⟩
  exact ⟨normalizeLiteral field v, Leaf.iterate_normalize _ n, v.numbers_normalizeLiteral field⟩

/-- A range of market values in ten thousands and a price above its mean, by the names that the fields had. -/
def byOldNames : Condition :=
  .all [.leaf (.withLiteral "market_cap" .between (.list [.number 1000000.0, .number 5000000.0])),
    .leaf (.against "price" .gt "ma20")]

/-- The same by the names that the fields have. -/
def byNewNames : Condition :=
  .all [.leaf (.against "close" .gt "ma20"),
    .leaf (.withLiteral "total_mv" .between (.list [.number 100.0, .number 500.0]))]

/-- Both are planned alike, and after three times the bounds of the range have been divided once. -/
theorem range_is_divided_once :
    Registry.builtin.PlansAlike byOldNames [⟨"vol", .asc⟩] byNewNames [⟨"volume", .desc⟩] ∧
      ∃ w, Leaf.normalize^[3] (.withLiteral "market_cap" .between (.list [.number 1000000.0, .number 5000000.0])) =
          .withLiteral "total_mv" .between w ∧ w.numbers = [100.0, 500.0] := by
  obtain ⟨-, -, -, hplans, hnumbers⟩ := normalized_once Registry.builtin byNewNames [] [⟨"volume", .desc⟩]
  refine ⟨hplans byOldNames [⟨"vol", .asc⟩] fun name => ?_, ?_⟩
  · have hold : (byOldNames.namesWith [⟨"vol", .asc⟩]).map canonicalName = ["total_mv", "close", "ma20", "volume"] := by decide
    have hnew : (byNewNames.namesWith [⟨"volume", .desc⟩]).map canonicalName = ["close", "ma20", "total_mv", "volume"] := by
      decide
    rw [hold, hnew]
    exact ((List.Perm.swap "close" "total_mv" _).trans ((List.Perm.swap "ma20" "total_mv" _).cons "close")).mem_iff
  · obtain ⟨w, hw, hnumbers⟩ := hnumbers "market_cap" .between (.list [.number 1000000.0, .number 5000000.0]) 2
    have hname : canonicalName "market_cap" = "total_mv" := by decide
    have hhundreds : [1000000.0, 5000000.0].map (· / 10000.0) = [100.0, 500.0] := by decide +kernel
    rw [hname] at hw
    exact ⟨w, hw, hnumbers.trans hhundreds⟩

end EquityScreen
