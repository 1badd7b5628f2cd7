import EquityScreen.Proofs.Lemmas.Maps
import EquityScreen.Proofs.Lemmas.Names
import EquityScreen.Proofs.Lemmas.Runs

/-!
# What an evaluation reads

A condition is evaluated by what is present of the fields it names and, for its crossings, by the last two numbers of their
columns. Contexts that agree on these agree on the condition (`Context.satisfies_congr`), and without crossings what is present
is all there is to agree on (`Context.satisfies_congr_of_present`).

A computed screen evaluates a symbol in one context (`ComputedScreen.context?`); the symbol is skipped where there is none, and
shown as the row of the context where the condition matches (`ComputedScreen.outcome_eq`).
-/

namespace EquityScreen

namespace Context

/-! ## Contexts that agree -/

/-- The contexts have the same of a field, now and a day before. -/
structure AgreeOn (ctx ctx' : Context) (field : String) : Prop where
  present : ctx.present? field = ctx'.present? field
  past : ∀ back < 2, ctx.past? field back = ctx'.past? field back

/-- The sides of a crossing cross, which those of no other comparison do. -/
def crossed (op : Operator) : Float × Float × Float × Float → Bool
  | (a1, b1, a0, b0) =>
    match op with
    | .crossUp => a1 ≤ b1 && b0 < a0
    | .crossDown => b1 ≤ a1 && a0 < b0
    | _ => false

/-- A crossing matches when both of its sides have a past and cross. A snapshot has none. -/
theorem crosses_eq (ctx : Context) (l : Leaf) : ctx.crosses l = (ctx.crossing? l).any (crossed l.op) := by
  cases ctx with
  | snapshot s => rfl
  | series s snap =>
    rw [crosses]
    cases (series s snap).crossing? l <;> rfl

/-- What has no right side does not cross. -/
theorem crosses_of_line?_eq_none (ctx : Context) {l : Leaf} (h : ctx.line? l.right 1 = none) : ctx.crosses l = false := by
  have hcrossing : ctx.crossing? l = none := by
    rw [crossing?, h]
    cases ctx.past? l.field 1 <;> rfl
  rw [crosses_eq, hcrossing]
  rfl

section Agreement

variable {ctx ctx' : Context}

/-- The right side of a comparison is read from what is present of its field. -/
theorem operand?_congr {right : Operand} (h : ∀ name, right = .field name → ctx.present? name = ctx'.present? name) :
    ctx.operand? right = ctx'.operand? right := by
  cases right with
  | literal v => rfl
  | field name => rw [operand?, operand?, h name rfl]

/-- The right side of a crossing is read from the past of its field. -/
theorem line?_congr {right : Operand} {back : Nat}
    (h : ∀ name, right = .field name → ctx.past? name back = ctx'.past? name back) :
    ctx.line? right back = ctx'.line? right back := by
  cases right with
  | literal v => rfl
  | field name => exact h name rfl

variable {l : Leaf}

theorem mem_fields_of_right {name : String} (h : l.right = .field name) : name ∈ l.fields := by
  rw [Leaf.fields, Leaf.rightField, h]
  exact List.mem_cons_of_mem _ (List.mem_singleton.2 rfl)

theorem compareLeaf_congr (h : ∀ name ∈ l.fields, ctx.present? name = ctx'.present? name) :
    ctx.compareLeaf l = ctx'.compareLeaf l := by
  have hoperand : ctx.operand? l.right = ctx'.operand? l.right :=
    operand?_congr fun name hname => h name (mem_fields_of_right hname)
  rw [compareLeaf, compareLeaf, h l.field List.mem_cons_self, hoperand]

theorem crosses_congr (h : ∀ name ∈ l.fields, ∀ back < 2, ctx.past? name back = ctx'.past? name back) :
    ctx.crosses l = ctx'.crosses l := by
  have hleft : ∀ back < 2, ctx.past? l.field back = ctx'.past? l.field back := h l.field List.mem_cons_self
  have hright : ∀ back < 2, ctx.line? l.right back = ctx'.line? l.right back := fun back hback =>
    line?_congr fun name hname => h name (mem_fields_of_right hname) back hback
  have hcrossing : ctx.crossing? l = ctx'.crossing? l := by
    simp only [crossing?, hleft 0 (by omega), hleft 1 (by omega), hright 0 (by omega), hright 1 (by omega)]
  rw [crosses_eq, crosses_eq, hcrossing]

theorem matchesLeaf_congr (h : ∀ name ∈ l.fields, ctx.AgreeOn ctx' name) : ctx.matchesLeaf l = ctx'.matchesLeaf l := by
  rw [matchesLeaf, matchesLeaf, crosses_congr fun name hname => (h name hname).past,
    compareLeaf_congr fun name hname => (h name hname).present]

/-- A comparison that is no crossing reads nothing of the past. -/
theorem matchesLeaf_congr_of_present (hcross : l.op.isCross = false)
    (h : ∀ name ∈ l.fields, ctx.present? name = ctx'.present? name) : ctx.matchesLeaf l = ctx'.matchesLeaf l := by
  simp only [matchesLeaf, hcross, Bool.false_eq_true, if_false, compareLeaf_congr h]

variable {c : Condition}

/-- A tree is judged by its comparisons. -/
theorem satisfies_congr_leaves (h : ∀ l ∈ c.leaves, ctx.matchesLeaf l = ctx'.matchesLeaf l) :
    ctx.satisfies c = ctx'.satisfies c := by
  induction c using Condition.induct with
  | leaf l => exact h l (List.mem_singleton.2 rfl)
  | group logic children ih =>
    have hchildren : ∀ d ∈ children, ctx.satisfies d = ctx'.satisfies d := by
      intro d hd
      refine ih d hd fun l hl => h l ?_
      rw [Condition.leaves, Condition.leavesAll_eq_flatMap]
      exact List.mem_flatMap.2 ⟨d, hd, hl⟩
    cases logic with
    | all =>
      rw [satisfies, satisfies, satisfiesAll_eq_all, satisfiesAll_eq_all, Bool.eq_iff_iff, List.all_eq_true, List.all_eq_true]
      exact forall₂_congr fun d hd => by rw [hchildren d hd]
    | any =>
      rw [satisfies, satisfies, satisfiesAny_eq_any, satisfiesAny_eq_any, Bool.eq_iff_iff, List.any_eq_true, List.any_eq_true]
      exact exists_congr fun d => and_congr_right fun hd => by rw [hchildren d hd]

/-- Contexts that agree on the fields of a tree agree on the tree. -/
theorem satisfies_congr (h : ∀ name ∈ c.fields, ctx.AgreeOn ctx' name) : ctx.satisfies c = ctx'.satisfies c :=
  satisfies_congr_leaves fun l hl =>
    matchesLeaf_congr fun name hname => h name (Condition.mem_fields.2 ⟨l, hl, hname⟩)

/-- For a tree without crossings it is enough that the same is present. -/
theorem satisfies_congr_of_present (hcross : ∀ l ∈ c.leaves, l.op.isCross = false)
    (h : ∀ name ∈ c.fields, ctx.present? name = ctx'.present? name) : ctx.satisfies c = ctx'.satisfies c :=
  satisfies_congr_leaves fun l hl =>
    matchesLeaf_congr_of_present (hcross l hl) fun name hname => h name (Condition.mem_fields.2 ⟨l, hl, hname⟩)

end Agreement

end Context

/-! ## A series before its snapshot -/

namespace Series

/-- The last number of a column, if it is not missing. -/
def lastPresent? (s : Series) (field : String) : Option Value := ((s.last? field).map .number).filter (!·.isMissing)

/-- What is no column has no last number. -/
theorem lastPresent?_of_not_contains {s : Series} {field : String} (h : s.columns.contains field = false) :
    s.lastPresent? field = none := by
  rw [lastPresent?, last?_of_not_contains h]
  rfl

end Series

namespace Context

/-- A column counts for what its last number is, and any other field for what the snapshot has. -/
theorem present?_series (s : Series) (snap : Option Snapshot) (field : String) :
    (series s snap).present? field =
      if s.columns.contains field then s.lastPresent? field else (snap.bind (·.get? field)).filter (!·.isMissing) := by
  rw [present?, current?]
  split <;> rfl

/-! ## The row of a context -/

/-- The row that a symbol is shown as where it matches. -/
def row (symbol : String) : Context → Row
  | series s snap => ((Row.ofSnapshot symbol snap).withLast s).withDay s
  | snapshot s => Row.ofSnapshot symbol (some s)

end Context

namespace ComputedScreen

/-- The context that a symbol is evaluated in: its bars with the indicators and its snapshot, or its snapshot alone. -/
def context? (screen : ComputedScreen) (sources : Sources) (symbol : String) : Option Context :=
  if screen.analysis.needsSeries then
    (sources.bars symbol screen.start screen.finish).series.bind fun bars =>
      (bars.withChange.compute screen.analysis.specs).toOption.map fun s => .series s (sources.snapshotOf symbol)
  else (sources.snapshotOf symbol).map .snapshot

/-- Where bars are needed the context is that of the bars with the indicators. -/
theorem context?_of_needsSeries {screen : ComputedScreen} {sources : Sources} {symbol : String} {ctx : Context}
    (hseries : screen.analysis.needsSeries = true) (h : screen.context? sources symbol = some ctx) :
    ∃ bars s, (sources.bars symbol screen.start screen.finish).series = some bars ∧
      bars.withChange.compute screen.analysis.specs = .ok s ∧ ctx = .series s (sources.snapshotOf symbol) := by
  rw [context?, if_pos hseries] at h
  obtain ⟨bars, hbars, hctx⟩ := Option.bind_eq_some_iff.1 h
  obtain ⟨s, hs, rfl⟩ := Option.map_eq_some_iff.1 hctx
  refine ⟨bars, s, hbars, ?_, rfl⟩
  cases hcompute : bars.withChange.compute screen.analysis.specs with
  | error e => exact absurd (hcompute ▸ hs) (by simp [Except.toOption])
  | ok s' =>
    rw [hcompute] at hs
    rw [Option.some.inj hs]

/-- A symbol without a context is skipped, and one with a context is shown if it matches there. -/
theorem outcome_eq (screen : ComputedScreen) (sources : Sources) (symbol : String) :
    (screen.evaluate sources symbol).value.outcome =
      match screen.context? sources symbol with
      | none => .skipped
      | some ctx => if ctx.satisfies screen.conditions then .matched (ctx.row symbol) else .rejected := by
  rw [evaluate_value, context?]
  cases screen.analysis.needsSeries with
  | false => cases sources.snapshotOf symbol <;> rfl
  | true =>
    rw [if_pos rfl, if_pos rfl]
    cases (sources.bars symbol screen.start screen.finish).series with
    | none => rfl
    | some bars =>
      simp only [ofSeries, Option.bind_some]
      cases bars.withChange.compute screen.analysis.specs <;> rfl

/-- A symbol that matches has a context, in which the condition matches and whose row it is shown as. -/
theorem exists_context_of_matched {screen : ComputedScreen} {sources : Sources} {symbol : String} {row : Row}
    (h : (screen.evaluate sources symbol).value.outcome = .matched row) :
    ∃ ctx, screen.context? sources symbol = some ctx ∧ ctx.satisfies screen.conditions = true ∧ ctx.row symbol = row := by
  rw [outcome_eq] at h
  cases hctx : screen.context? sources symbol with
  | none => exact nomatch hctx ▸ h
  | some ctx =>
    simp only [hctx] at h
    split at h
    · rename_i hsatisfies
      exact ⟨ctx, rfl, hsatisfies, Outcome.matched.inj h⟩
    · exact nomatch h

end ComputedScreen

end EquityScreen
