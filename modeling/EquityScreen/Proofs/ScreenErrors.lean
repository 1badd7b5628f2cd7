import EquityScreen.Proofs.Lemmas.Checks
import EquityScreen.Proofs.RouteAgreement

/-!
# What an accepted request can fail with

Whatever comparison the registry accepts over stored fields has a predicate (`Leaf.exists_predicate`), and whatever predicate
is made of a comparison names columns of the table (`Registry.exists_check_of_predicate`). So a condition that is accepted
and left to the store fails to become a filter only where it is not flat, its filter and its sorts always have a statement,
and of all the errors a screen of a store might end with three are left (`only_shape_is_refused`).
-/

namespace EquityScreen

/-! ## Flat trees -/

namespace Condition

/-- The tree is one comparison or an all-group of comparisons. -/
def IsFlat (c : Condition) : Prop := (∃ l, c = .leaf l) ∨ ∃ ls : List Leaf, c = .all (ls.map .leaf)

theorem mapM_asLeaf? (ls : List Leaf) : (ls.map Condition.leaf).mapM asLeaf? = some ls := by
  induction ls with
  | nil => rfl
  | cons l rest ih =>
    rw [List.map_cons, List.mapM_cons, ih]
    rfl

/-- The comparisons of a tree can be listed when it is flat. -/
theorem exists_flatLeaves?_iff {c : Condition} : (∃ ls, c.flatLeaves? = some ls) ↔ c.IsFlat := by
  constructor
  · rintro ⟨ls, hls⟩
    rcases flatLeaves?_eq_some hls with ⟨l, hc, -⟩ | hc
    · exact .inl ⟨l, hc⟩
    · exact .inr ⟨ls, hc⟩
  · rintro (⟨l, rfl⟩ | ⟨ls, rfl⟩)
    · exact ⟨[l], rfl⟩
    · exact ⟨ls, mapM_asLeaf? ls⟩

/-- Normalizing keeps whether a tree is flat. -/
theorem isFlat_normalize (c : Condition) : c.normalize.IsFlat ↔ c.IsFlat := by
  rw [← exists_flatLeaves?_iff, ← exists_flatLeaves?_iff, normalize, flatLeaves?_mapLeaves]
  cases c.flatLeaves? <;> simp

end Condition

/-! ## A predicate names columns -/

/-- A value that an option holds is the answer. -/
theorem orError_eq_ok {ε α : Type} {e : ε} {o : Option α} {a : α} (h : orError e o = .ok a) : o = some a := by
  cases o with
  | none => exact nomatch h
  | some a' => exact congrArg some (Except.ok.inj h)

namespace Registry

/-- A stored field of the catalog is a column. -/
theorem exists_check_of_storedField {name : String} {d : Descriptor} (h : builtin.storedField name = .ok d) :
    ∃ c, Column.check d.name = .ok c := by
  obtain ⟨d', hd, h⟩ := bind_eq_ok h
  have hresolve : builtin.resolve? name = some d' := orError_eq_ok hd
  by_cases hc : d'.category = .technical
  · simp [hc, throw, throwThe, MonadExceptOf.throw, bind, Except.bind] at h
  · simp [hc, pure, Except.pure] at h
    obtain rfl := h
    obtain ⟨c, hcol, -, -⟩ := column_of_storedField (mem_of_resolve? hresolve).1 hc
    exact ⟨c, Column.check_of_ofName? hcol⟩

/-- The predicate of a comparison with a literal names the column of the field alone. -/
theorem columns_of_literalPredicate {d : Descriptor} {field : String} {op : Operator} {v : Literal} {p : Predicate String}
    (h : literalPredicate d field op v = .ok p) : p.columns = [d.name] := by
  unfold literalPredicate at h
  cases op
  case between =>
    obtain ⟨⟨low, high⟩, -, h⟩ := bind_eq_ok h
    obtain rfl := Except.ok.inj h
    rfl
  case isIn =>
    obtain ⟨vs, -, h⟩ := bind_eq_ok h
    obtain rfl := Except.ok.inj h
    rfl
  case notIn =>
    obtain ⟨vs, -, h⟩ := bind_eq_ok h
    obtain rfl := Except.ok.inj h
    rfl
  case contains =>
    obtain ⟨needle, -, h⟩ := bind_eq_ok h
    obtain rfl := Except.ok.inj h
    rfl
  all_goals
    obtain ⟨rel, -, h⟩ := bind_eq_ok h
    obtain ⟨w, -, h⟩ := bind_eq_ok h
    obtain rfl := Except.ok.inj h
    rfl

/-- Whatever predicate is made of a comparison passes its check. -/
theorem exists_check_of_predicate {l : Leaf} {p : Predicate String} (h : builtin.predicate l = .ok p) :
    ∃ q, p.check = .ok q := by
  obtain ⟨d, hd, h⟩ := bind_eq_ok h
  obtain ⟨c, hc⟩ := exists_check_of_storedField hd
  refine Predicate.exists_check fun name hname => ?_
  cases hright : l.right with
  | literal v =>
    rw [hright] at h
    rw [columns_of_literalPredicate h, List.mem_singleton] at hname
    exact hname ▸ ⟨c, hc⟩
  | field other =>
    rw [hright] at h
    obtain ⟨rel, -, h⟩ := bind_eq_ok h
    obtain ⟨d', hd', h⟩ := bind_eq_ok h
    obtain rfl := Except.ok.inj h
    rcases List.mem_cons.1 hname with rfl | hname
    · exact ⟨c, hc⟩
    · rw [List.mem_singleton.1 hname]
      exact exists_check_of_storedField hd'

/-- Whatever filter is made of a condition passes its check. -/
theorem exists_check_of_pushdown {c : Condition} {f : Filter} (h : builtin.pushdown c = .ok f) :
    ∃ ps, f.mapM Predicate.check = .ok ps := by
  obtain ⟨ls, -, hls⟩ := bind_eq_ok h
  refine exists_mapM fun p hp => ?_
  obtain ⟨l, -, hl⟩ := exists_of_mem_mapM hls hp
  exact exists_check_of_predicate hl

end Registry

/-! ## An accepted comparison has a predicate -/

/-- A literal that fits a field is bound. -/
theorem Descriptor.exists_bindable {d : Descriptor} {v : Literal} (h : d.fits v = true) : ∃ w, d.bindable? v = some w := by
  cases v with
  | list items => exact absurd h (by simp [fits])
  | number x =>
    rw [fits] at h
    exact ⟨.number x, by rw [bindable?, if_pos h]⟩
  | text s =>
    rw [fits] at h
    rw [bindable?]
    cases hd : d.isNumeric with
    | false => exact ⟨.text s, rfl⟩
    | true =>
      rw [hd] at h
      obtain ⟨x, hx⟩ := Option.isSome_iff_exists.1 (by simpa using h : (Literal.text s).asNumber.isSome = true)
      exact ⟨.number x, by rw [show Decimal.read s = some x from hx]; rfl⟩

theorem Descriptor.exists_mapM_bindable {d : Descriptor} {items : List Literal} (h : ∀ v ∈ items, d.fits v = true) :
    ∃ ws, items.mapM d.bindable? = some ws := by
  induction items with
  | nil => exact ⟨[], rfl⟩
  | cons v rest ih =>
    obtain ⟨w, hw⟩ := exists_bindable (h v List.mem_cons_self)
    obtain ⟨ws, hws⟩ := ih fun v hv => h v (List.mem_cons_of_mem _ hv)
    exact ⟨w :: ws, by rw [List.mapM_cons, hw, hws]; rfl⟩

namespace Leaf

/-- An accepted literal of a stored field makes a predicate. -/
theorem exists_literalPredicate {d : Descriptor} {op : Operator} {v : Literal} (hop : op ∈ d.storedOperators)
    (h : d.literalReason? op v = none) (field : String) : ∃ p, Registry.literalPredicate d field op v = .ok p := by
  have hrelation : ∀ rel, Relation.ofOperator? op = some rel → d.fits v = true →
      ∃ p, Registry.literalPredicate d field op v = .ok p := by
    intro rel hrel hfits
    obtain ⟨w, hw⟩ := d.exists_bindable hfits
    exact ⟨_, literalPredicate_compare hrel hw⟩
  have hlist : op = .isIn ∨ op = .notIn → ∃ ws, v.asList.bind (·.mapM d.bindable?) = some ws := by
    intro hin
    obtain ⟨items, rfl, hfits⟩ := fits_of_list hin h
    exact d.exists_mapM_bindable hfits
  cases op
  case between =>
    cases hv : v.asBounds with
    | none => exact absurd h (by simp [Descriptor.literalReason?, hv])
    | some bounds => exact ⟨_, by rw [Registry.literalPredicate, hv]; rfl⟩
  case isIn =>
    obtain ⟨ws, hws⟩ := hlist (.inl rfl)
    exact ⟨_, by rw [Registry.literalPredicate, hws]; rfl⟩
  case notIn =>
    obtain ⟨ws, hws⟩ := hlist (.inr rfl)
    exact ⟨_, by rw [Registry.literalPredicate, hws]; rfl⟩
  case contains =>
    cases hv : v.asText with
    | none => exact absurd h (by simp [Descriptor.literalReason?, hv])
    | some needle => exact ⟨_, by rw [Registry.literalPredicate, hv]; rfl⟩
  case crossUp => exact absurd hop (by unfold Descriptor.storedOperators; split <;> decide)
  case crossDown => exact absurd hop (by unfold Descriptor.storedOperators; split <;> decide)
  all_goals exact hrelation _ rfl (by simpa [Descriptor.literalReason?] using h)

/-- An accepted comparison of stored fields makes a predicate. -/
theorem exists_predicate {l : Leaf} (hnormal : l.normalize = l) (haccepted : Registry.builtin.leafReason? l = none)
    (hstored : ∀ name ∈ l.fields, Registry.builtin.isStored name = true) : ∃ p, Registry.builtin.predicate l = .ok p := by
  have hname : canonicalName l.field = l.field := congrArg Leaf.field hnormal
  obtain ⟨F⟩ := exists_storedField hname (hstored l.field List.mem_cons_self)
  obtain ⟨hop, hfits⟩ := (accepted_iff F).1 haccepted
  cases hright : l.right with
  | literal v =>
    rw [hright] at hfits
    obtain ⟨p, hp⟩ := exists_literalPredicate hop hfits l.field
    exact ⟨p, (predicate_literal F hright).trans hp⟩
  | field other =>
    rw [hright] at hfits
    have hmem : other ∈ l.fields := by simp [Leaf.fields, Leaf.rightField, hright]
    obtain ⟨d, hd, hc⟩ := Registry.isStored_iff.1 (hstored other hmem)
    obtain ⟨rel, hrel⟩ : ∃ rel, Relation.ofOperator? l.op = some rel := by
      obtain ⟨-, hlist, hcontains⟩ := hfits
      unfold Descriptor.storedOperators at hop
      cases hop' : l.op <;> rw [hop'] at hop hlist hcontains
      case crossUp => split at hop <;> exact absurd hop (by decide)
      case crossDown => split at hop <;> exact absurd hop (by decide)
      case contains => exact absurd rfl hcontains
      all_goals first | exact ⟨_, rfl⟩ | exact absurd hlist (by decide)
    refine ⟨.compareColumns F.field.name rel d.name, ?_⟩
    rw [Registry.predicate, F.stored, hright]
    simp only [bind, Except.bind, hrel, orError, Registry.storedField_eq_ok hd hc]
    rfl

end Leaf

/-! ## An accepted condition -/

namespace Registry

/-- A screen left to the store names stored fields only. -/
theorem isStored_of_plan {c : Condition} {keys : List SortKey} (h : builtin.plan c keys = .pushdown) :
    (∀ name ∈ c.fields, builtin.isStored name = true) ∧ ∀ k ∈ keys, builtin.isStored k.field = true := by
  have hall : (referencedFields c keys).all builtin.isStored = true := by
    by_contra hnot
    rw [plan, if_neg hnot] at h
    exact absurd h (by decide)
  rw [List.all_eq_true] at hall
  constructor
  · intro name hname
    rw [← isStored_canonicalName]
    exact hall _ (mem_referencedFields.2 (.inl ⟨name, hname, rfl⟩))
  · intro k hk
    rw [← isStored_canonicalName]
    exact hall _ (mem_referencedFields.2 (.inr ⟨k, hk, rfl⟩))

/-- A condition that is not flat has no filter, and that is what is said of it. -/
theorem pushdown_of_not_isFlat (r : Registry) {c : Condition} (h : ¬c.IsFlat) : r.pushdown c = .error .groupNotSupported := by
  cases hls : c.flatLeaves? with
  | none =>
    rw [pushdown, hls]
    rfl
  | some ls => exact absurd (Condition.exists_flatLeaves?_iff.1 ⟨ls, hls⟩) h

/-- A flat condition that is accepted, over stored fields, has a filter. -/
theorem exists_pushdown {c : Condition} (hflat : c.normalize.IsFlat) (haccepted : builtin.issues c.normalize = [])
    (hstored : ∀ name ∈ c.normalize.fields, builtin.isStored name = true) : ∃ f, builtin.pushdown c.normalize = .ok f := by
  obtain ⟨ls, hls⟩ := Condition.exists_flatLeaves?_iff.2 hflat
  have hleaves := Condition.leaves_of_flat hls
  rw [pushdown, hls]
  refine exists_mapM fun l hl => ?_
  rw [← hleaves] at hl
  have hnormal := normalize_of_mem_leaves hl
  rw [hnormal]
  refine Leaf.exists_predicate hnormal ((issues_eq_nil_iff _ _).1 haccepted l hl) fun name hname => ?_
  exact hstored name (Condition.mem_fields.2 ⟨l, hl, hname⟩)

end Registry

/-- Sort keys of stored fields have sorts of columns. -/
theorem exists_check_of_columnSorts {keys : List SortKey} (h : ∀ k ∈ keys, Registry.builtin.isStored k.field = true) :
    ∃ sorts, (columnSorts keys).mapM ColumnSort.check = .ok sorts := by
  obtain ⟨sorts, hsorts, -⟩ := exists_sorts (exists_column_of_givenSort h)
  rw [← columnSorts_eq] at hsorts
  exact ⟨sorts, hsorts⟩

/-! ## Errors of a run -/

namespace Store

variable {s : Store} {settings : Settings} {today : Date} {q : Request}

/-- A checked query of a page fails only where the store is closed. -/
theorem closed_of_screen_error {f : Filter} {ps : List (Predicate Column)} (hf : f.mapM Predicate.check = .ok ps)
    {sorts : List (ColumnSort String)} {order : List (ColumnSort Column)} (ho : sorts.mapM ColumnSort.check = .ok order)
    {limit offset : Int} (hlimit : 0 ≤ limit) (hoffset : 0 ≤ offset) {e : StoreError}
    (h : s.screen f sorts limit offset = .error e) : e = .closed ∧ s.isClosed = true := by
  rw [screen_eq hf ho hlimit hoffset] at h
  exact answer_eq_error h

/-- An accepted request that is left to the store fails where its tree is not flat or the store is closed. -/
theorem pushedAnswer_error_cases (haccepted : (s.screener settings).issuesOf q = [])
    (hrouting : (s.screener settings).routingOf q = .pushdown) {e : ScreenError}
    (h : (s.screener settings).pushedAnswer q = .error e) :
    e = .pushdown .groupNotSupported ∧ ¬q.conditions.IsFlat ∨ e = .store .closed ∧ s.isClosed = true := by
  have hplan : Registry.builtin.plan q.conditions.normalize (q.orderBy.map SortKey.normalize) = .pushdown := by
    unfold Screener.routingOf Registry.planWithHint at hrouting
    split at hrouting
    · exact hrouting
    · exact absurd hrouting (by decide)
  obtain ⟨hstored, hkeys⟩ := Registry.isStored_of_plan hplan
  rcases bind_eq_error h with hfilter | ⟨f, hf, h⟩
  · obtain ⟨e', he', rfl⟩ := mapError_eq_error hfilter
    have hflat : ¬q.conditions.IsFlat := by
      intro hflat
      obtain ⟨f, hf⟩ := Registry.exists_pushdown ((Condition.isFlat_normalize _).2 hflat)
        (List.append_eq_nil_iff.1 haccepted).1 hstored
      exact absurd (he'.symm.trans hf) (by simp)
    have hnone := Registry.builtin.pushdown_of_not_isFlat fun hnormal => hflat ((Condition.isFlat_normalize _).1 hnormal)
    exact .inl ⟨congrArg _ (Except.error.inj (he'.symm.trans hnone)), hflat⟩
  · obtain ⟨ps, hps⟩ := Registry.exists_check_of_pushdown (mapError_eq_ok hf)
    obtain ⟨order, horder⟩ := exists_check_of_columnSorts hkeys
    rcases bind_eq_error h with hquery | ⟨found, -, h⟩
    · obtain ⟨e', he', rfl⟩ := mapError_eq_error hquery
      change s.sources.query f (columnSorts (q.orderBy.map SortKey.normalize)) _ = _ at he'
      rw [query_eq hps horder] at he'
      obtain ⟨rfl, hclosed⟩ := answer_eq_error he'
      exact .inr ⟨rfl, hclosed⟩
    · exact nomatch h

/-- What a run fails with: the issues of its request, a tree that the store cannot be asked, or a closed store. -/
theorem run_error_cases {e : ScreenError} (h : ((s.screener settings).run today q).run.value = .error e) :
    e = .invalid ((s.screener settings).issuesOf q) ∧ (s.screener settings).issuesOf q ≠ [] ∨
      e = .pushdown .groupNotSupported ∧ ¬q.conditions.IsFlat ∨ e = .store .closed ∧ s.isClosed = true := by
  rw [Screener.run_value] at h
  by_cases hissues : ((s.screener settings).issuesOf q).isEmpty = true
  · rw [if_pos hissues] at h
    refine .inr ?_
    cases hrouting : (s.screener settings).routingOf q with
    | pushdown =>
      rw [hrouting] at h
      exact pushedAnswer_error_cases (List.isEmpty_iff.1 hissues) hrouting h
    | computed =>
      rw [hrouting] at h
      rcases bind_eq_error h with hcandidates | ⟨candidates, -, h⟩
      · obtain ⟨e', he', rfl⟩ := mapError_eq_error hcandidates
        obtain ⟨rfl, hclosed⟩ := answer_eq_error he'
        exact .inr ⟨rfl, hclosed⟩
      · exact nomatch h
  · rw [if_neg hissues] at h
    refine .inl ⟨(Except.error.inj h).symm, fun hnone => hissues ?_⟩
    rw [hnone]
    rfl

end Store

/-- A condition and sort keys that are accepted and left to the store make a filter just where the condition is flat, and the
one error there can be says that it is not. The filter and the sorts name columns only, so both have a statement. The page
that they are asked for is one of 64 bits with a sign as it is, and such a query fails only where the store is closed. So a
run of a store ends with three errors alone: those of its request, of a tree that is not flat, and of a closed store. -/
theorem only_shape_is_refused {c : Condition} {keys : List SortKey}
    (haccepted : Registry.builtin.check c.normalize (keys.map SortKey.normalize) = [])
    (hplan : Registry.builtin.plan c.normalize (keys.map SortKey.normalize) = .pushdown) :
    let asked := Registry.builtin.pushdown c.normalize
    let sorts := columnSorts (keys.map SortKey.normalize)
    ((∃ f, asked = .ok f) ↔ c.IsFlat) ∧ (¬c.IsFlat → asked = .error .groupNotSupported) ∧
      (∀ f, asked = .ok f → (∃ statement, f.statement = .ok statement) ∧ (∃ order, orderBy sorts = .ok order) ∧
        ∀ (limit : Option Nat) (offset : Nat),
          let page := Page.ofRequest limit offset
          (Int64.ofNat page.limit).toInt = page.limit ∧ (Int64.ofNat page.offset).toInt = page.offset ∧
            ∀ (s : Store) (e : StoreError),
              s.screen f sorts (Int64.ofNat page.limit).toInt (Int64.ofNat page.offset).toInt = .error e →
                e = .closed ∧ s.isClosed = true) ∧
      ∀ (s : Store) (settings : Settings) (today : Date) (q : Request) (e : ScreenError),
        ((s.screener settings).run today q).run.value = .error e →
          e = .invalid ((s.screener settings).issuesOf q) ∧ (s.screener settings).issuesOf q ≠ [] ∨
            e = .pushdown .groupNotSupported ∧ ¬q.conditions.IsFlat ∨ e = .store .closed ∧ s.isClosed = true := by
  intro asked sorts
  obtain ⟨hstored, hkeys⟩ := Registry.isStored_of_plan hplan
  have hissues := (List.append_eq_nil_iff.1 haccepted).1
  have hrefused : ¬c.IsFlat → asked = .error .groupNotSupported := fun hflat =>
    Registry.builtin.pushdown_of_not_isFlat fun hnormal => hflat ((Condition.isFlat_normalize c).1 hnormal)
  refine ⟨⟨?_, ?_⟩, hrefused, ?_, fun s settings today q e => Store.run_error_cases⟩
  · rintro ⟨f, hf⟩
    by_contra hflat
    exact absurd (hf.symm.trans (hrefused hflat)) (by simp)
  · intro hflat
    exact Registry.exists_pushdown ((Condition.isFlat_normalize c).2 hflat) hissues hstored
  · intro f hf
    obtain ⟨ps, hps⟩ := Registry.exists_check_of_pushdown hf
    obtain ⟨order, horder⟩ := exists_check_of_columnSorts hkeys
    have hstatement : f.statement = .ok ⟨Text.join " AND " ("1=1" :: ps.map Predicate.clause), ps.flatMap Predicate.binds⟩ := by
      rw [Filter.statement, hps]
      rfl
    have hsorted : orderBy sorts = .ok (Text.join ", " (order.flatMap ColumnSort.clauses ++ ["symbol ASC"])) := by
      rw [orderBy, horder]
      rfl
    refine ⟨⟨_, hstatement⟩, ⟨_, hsorted⟩, ?_⟩
    intro limit offset page
    obtain ⟨-, hlimit, hoffset⟩ := Page.ofRequest_bounds limit offset
    have hpageLimit : (Int64.ofNat page.limit).toInt = page.limit :=
      Int64.toInt_ofNat_of_lt (Nat.lt_of_le_of_lt hlimit (by decide))
    have hpageOffset : (Int64.ofNat page.offset).toInt = page.offset := Int64.toInt_ofNat_of_lt hoffset
    refine ⟨hpageLimit, hpageOffset, fun s e => Store.closed_of_screen_error hps horder ?_ ?_⟩
    · rw [hpageLimit]
      omega
    · rw [hpageOffset]
      omega

/-- Two comparisons under old names have a filter, and a choice between them has none. -/
theorem choice_is_refused :
    let cheap : List Leaf := [⟨"pe_ratio", .lt, .literal (.text "15")⟩,
      ⟨"industry", .isIn, .literal (.list [.text "bank", .text "steel"])⟩]
    (∃ f, Registry.builtin.pushdown (Condition.all (cheap.map .leaf)).normalize = .ok f) ∧
      Registry.builtin.pushdown (Condition.any (cheap.map .leaf)).normalize = .error .groupNotSupported := by
  intro cheap
  let keys : List SortKey := [⟨"market_cap", .desc⟩, ⟨"code", .asc⟩]
  have hall := @only_shape_is_refused (.all (cheap.map .leaf)) keys rfl rfl
  have hany := @only_shape_is_refused (.any (cheap.map .leaf)) keys rfl rfl
  refine ⟨hall.1.2 (.inr ⟨cheap, rfl⟩), hany.2.1 ?_⟩
  rintro (⟨l, hl⟩ | ⟨ls, hls⟩)
  · exact nomatch hl
  · exact nomatch (Condition.group.inj hls).1

end EquityScreen
