import EquityScreen.Proofs.Lemmas.Predicates
import EquityScreen.Proofs.Lemmas.Queries

/-!
# Route agreement: which records match

A flat condition over stored fields is answered by the store or computed from snapshots. The store is given the text of a `WHERE`
and the values behind its marks, and what it reads there selects the records whose snapshots the condition holds of; so both ways
find the same records, show the same row of each and give one answer to a request (`routes_agree`). What has to be asked of the
texts is that the store can read them in a search: it ends a text at its first NUL and takes U+FFFE and U+FFFF for the
replacement character, so that a search for the one finds the other (`routes_differ_on_noncharacters`).
-/

namespace EquityScreen

/-- A flat condition that the registry accepts, over stored fields, whose literals for fields of numbers are numbers. -/
structure Condition.Pushable (c : Condition) : Prop where
  flat : c.normalize.flatLeaves?.isSome = true
  accepted : Registry.builtin.issues c.normalize = []
  stored : ∀ name ∈ c.normalize.fields, Registry.builtin.isStored name = true
  hasNumbers : ∀ l ∈ c.normalize.leaves, l.HasNumbers

/-- Every text that the condition searches in the record, and what it searches for, are to the store what they are. -/
def Condition.Legible (c : Condition) (r : Record) : Prop :=
  ∀ l ∈ c.normalize.leaves, l.Legible r

namespace Condition.Pushable

variable {c : Condition}

/-- Each comparison of the condition can be left to the store. -/
theorem leaf (h : c.Pushable) {l : Leaf} (hl : l ∈ c.normalize.leaves) : l.Pushable where
  normal := normalize_of_mem_leaves hl
  accepted := (Registry.issues_eq_nil_iff _ _).1 h.accepted l hl
  stored name hname := h.stored name (Condition.mem_fields.2 ⟨l, hl, hname⟩)
  hasNumbers := h.hasNumbers l hl

/-- The condition makes a filter that a record satisfies when the condition holds of its snapshot. -/
theorem exists_filter (h : c.Pushable) :
    ∃ f ps, Registry.builtin.pushdown c.normalize = .ok f ∧ f.mapM Predicate.check = .ok ps ∧
      ∀ r : Record, r.Kept → c.Legible r →
        ps.all r.satisfies = (Context.snapshot r.snapshot).satisfies c.normalize := by
  obtain ⟨ls, hls⟩ := Option.isSome_iff_exists.1 h.flat
  have hleaves := Condition.leaves_of_flat hls
  have hmem : ∀ l ∈ ls, l ∈ c.normalize.leaves := fun l hl => hleaves ▸ hl
  obtain ⟨f, ps, hf, hps, hagree⟩ := EquityScreen.exists_filter
    (fun l hl => normalize_of_mem_leaves (hmem l hl)) (fun l hl => (h.leaf (hmem l hl)).carried)
  refine ⟨f, ps, ?_, hps, ?_⟩
  · rw [Registry.pushdown, hls]
    exact hf
  · intro r hr hread
    rw [Context.satisfies_of_flat _ hls]
    exact hagree r hr fun l hl => hread l (hmem l hl)

end Condition.Pushable

/-! ## Requests -/

/-- A screen of stored fields needs no bars. -/
theorem needsSeries_of_stored {c : Condition} {keys : List SortKey}
    (h : ∀ name ∈ referencedFields c keys, Registry.builtin.isStored name = true) :
    (Registry.builtin.analyze c keys).needsSeries = false := by
  have hnone : (referencedFields c keys).filter Registry.builtin.isTechnical = [] := by
    rw [List.filter_eq_nil_iff]
    intro name hname
    rw [Registry.not_isTechnical_of_isStored (h name hname)]
    exact Bool.false_ne_true
  show (!((referencedFields c keys).filter Registry.builtin.isTechnical).isEmpty) = false
  rw [hnone]
  rfl

/-- The screener of a store with the fields of the catalog. -/
def Store.screener (s : Store) (settings : Settings) : Screener := { settings, sources := s.sources }

/-- How many records match, and the rows of the page. -/
def Response.found (a : Response) : Nat × List Row := (a.total, a.items)

/-- Who answered, and what. -/
def Response.shown (a : Response) : Routing × Nat × List Row := (a.routing, a.found)

namespace Store

variable {s : Store} {c : Condition} {q : Request}

/-- What either way shows of a request whose condition and sort keys are stored: the page of the rows of all records that the
condition holds of, brought up to date, and how many there are. -/
def shownOf (s : Store) (settings : Settings) (routing : Routing) (q : Request) :
    Except ScreenError (Routing × Nat × List Row) :=
  let rows := (s.records.filter fun r => (Context.snapshot r.snapshot).satisfies q.conditions.normalize).map Record.row
  let cut := assemble rows (q.orderBy.map SortKey.normalize) (Page.ofRequest q.limit q.offset)
  (s.answer (routing, cut.2, (s.screener settings).refreshed cut.1)).mapError .store

/-- The sort keys of a request are stored under the names of the registry when they are stored. -/
theorem isStored_normalize_keys {keys : List SortKey} (h : ∀ k ∈ keys, Registry.builtin.isStored k.field = true) :
    ∀ k ∈ keys.map SortKey.normalize, Registry.builtin.isStored k.field = true := by
  intro k hk
  obtain ⟨k', hk', rfl⟩ := List.mem_map.1 hk
  exact (Registry.isStored_canonicalName k'.field).trans (h k' hk')

/-- The store shows the rows of the records that the condition holds of. -/
theorem pushedAnswer_shown (hs : s.Kept) (hc : q.conditions.Pushable) (hread : ∀ r ∈ s.records, q.conditions.Legible r)
    (hkeys : ∀ k ∈ q.orderBy, Registry.builtin.isStored k.field = true) (settings : Settings) :
    ((s.screener settings).pushedAnswer q).map Response.shown = s.shownOf settings .pushdown q := by
  obtain ⟨f, ps, hf, hps, hagree⟩ := hc.exists_filter
  have hfound : s.found ps =
      s.records.filter fun r => (Context.snapshot r.snapshot).satisfies q.conditions.normalize := by
    refine List.filter_congr fun r hr => ?_
    exact hagree r (kept_of_mem_records hs hr) (hread r hr)
  have hquery := query_eq_assemble hs hps (isStored_normalize_keys hkeys) (Page.ofRequest q.limit q.offset)
    (List.Perm.refl ((s.found ps).map Record.row))
  rw [normalize_keys, hfound] at hquery
  have hpushdown : (s.screener settings).registry.pushdown q.conditions.normalize = .ok f := hf
  have hsource : (s.screener settings).sources = s.sources := rfl
  simp only [Screener.pushedAnswer, hpushdown, hsource, shownOf, bind, Except.bind, Except.mapError, hquery]
  unfold answer
  cases s.isClosed <;> rfl

/-- Where no bars are needed and every symbol is looked at the computed rows are those of the records that the condition holds
of. -/
theorem computedAnswer_shown (hs : s.Kept) (hc : ∀ name ∈ q.conditions.normalize.fields, Registry.builtin.isStored name = true)
    (hkeys : ∀ k ∈ q.orderBy, Registry.builtin.isStored k.field = true) (hmarket : q.marketOnly? = none) {settings : Settings}
    (hdeadline : settings.deadline = none) (hcap : s.records.length ≤ settings.universeCap) (today : Date) :
    ((s.screener settings).computedAnswer today q).map Response.shown = s.shownOf settings .computed q := by
  have hseries := needsSeries_of_stored (Registry.all_isStored hc (isStored_normalize_keys hkeys))
  have hcandidates := candidates_all s hcap
  have hsource : (s.screener settings).sources = s.sources := rfl
  have hsettings : (s.screener settings).settings = settings := rfl
  simp only [Screener.computedAnswer, hsource, hsettings, hmarket, hcandidates, shownOf]
  cases hclosed : s.isClosed with
  | true => simp [answer, hclosed, Except.mapError, bind, Except.bind, Except.map]
  | false =>
    have hbars : ((s.screener settings).computedScreen today q).analysis.needsSeries = false := hseries
    have hrows := (s.screener settings).rows_outcomes hbars hdeadline (s.records.map (·.symbol))
    have hfound := hrows.trans (rows_of_records hs hclosed _ fun r hr => hr)
    simp only [answer, hclosed, Bool.false_eq_true, if_false, Except.mapError, bind, Except.bind, Except.map, hfound]
    rfl

/-- With stored sort keys the hint alone decides who answers. -/
theorem routingOf_screener (hc : ∀ name ∈ q.conditions.normalize.fields, Registry.builtin.isStored name = true)
    (hkeys : ∀ k ∈ q.orderBy, Registry.builtin.isStored k.field = true) (settings : Settings) (hint : Bool) :
    (s.screener settings).routingOf { q with preferPushdown := hint } = if hint then .pushdown else .computed := by
  have hall : (referencedFields q.conditions.normalize (q.orderBy.map SortKey.normalize)).all Registry.builtin.isStored =
      true :=
    List.all_eq_true.2 (Registry.all_isStored hc (isStored_normalize_keys hkeys))
  show (if hint then Registry.builtin.plan _ _ else _) = _
  rw [Registry.plan, if_pos hall]

/-- A sort key that is not stored is never left to the store. -/
theorem routingOf_screener_of_not_stored (hkey : ∃ k ∈ q.orderBy, Registry.builtin.isStored k.field = false)
    (settings : Settings) (hint : Bool) : (s.screener settings).routingOf { q with preferPushdown := hint } = .computed := by
  obtain ⟨k, hk, hstored⟩ := hkey
  have hall : ¬(referencedFields q.conditions.normalize (q.orderBy.map SortKey.normalize)).all Registry.builtin.isStored =
      true := by
    intro hall
    have hname := List.all_eq_true.1 hall (canonicalName k.field)
      (mem_referencedFields.2 (.inr ⟨k.normalize, List.mem_map_of_mem hk, canonicalName_canonicalName k.field⟩))
    rw [Registry.isStored_canonicalName, hstored] at hname
    exact absurd hname Bool.false_ne_true
  show (if hint then Registry.builtin.plan _ _ else _) = _
  rw [Registry.plan, if_neg hall, ite_self]

end Store

/-- On the match set the two routes agree. The comparisons of the condition make the body of a `WHERE`. Its text, with the values
behind its marks, is read as clauses, and these select a record of the table just when the condition holds of its snapshot; the
row of the record is the row of its snapshot. A request for all markets, without a deadline and with no more records than are
looked at, is then answered alike whether the store may be used or not; with stored sort keys the one answer is the store's and
the other is computed. -/
theorem routes_agree {c : Condition} (h : c.Pushable) :
    (∃ f st clauses, Registry.builtin.pushdown c.normalize = .ok f ∧ f.statement = .ok st ∧ st.clauses? = some clauses ∧
      ∀ r : Record, r.Kept → c.Legible r →
        Clause.select clauses r = (Context.snapshot r.snapshot).satisfies c.normalize ∧
          r.row = Row.ofSnapshot r.symbol (some r.snapshot)) ∧
    ∀ (s : Store) (settings : Settings) (today : Date) (q : Request), s.Kept → (∀ r ∈ s.records, c.Legible r) →
      q.conditions = c → q.marketOnly? = none → settings.deadline = none → s.records.length ≤ settings.universeCap →
        let answer (hint : Bool) := ((s.screener settings).run today { q with preferPushdown := hint }).run.value
        (answer true).map Response.found = (answer false).map Response.found ∧
          ((∀ k ∈ q.orderBy, Registry.builtin.isStored k.field = true) →
            (answer true).map Response.shown = s.shownOf settings .pushdown q ∧
              (answer false).map Response.shown = s.shownOf settings .computed q) := by
  refine ⟨?_, ?_⟩
  · obtain ⟨f, ps, hf, hps, hagree⟩ := h.exists_filter
    obtain ⟨st, hst, hclauses⟩ := Filter.exists_statement hps
    refine ⟨f, st, Filter.clauses ps, hf, hst, hclauses, fun r hr hread => ⟨?_, r.row_eq_ofSnapshot⟩⟩
    exact (Clause.select_clauses ps r).trans (hagree r hr hread)
  · rintro s settings today q hs hread rfl hmarket hdeadline hcap answer
    have hstored : (∀ k ∈ q.orderBy, Registry.builtin.isStored k.field = true) →
        (answer true).map Response.shown = s.shownOf settings .pushdown q ∧
          (answer false).map Response.shown = s.shownOf settings .computed q := by
      intro hkeys
      have hissues (hint : Bool) : ((s.screener settings).issuesOf { q with preferPushdown := hint }).isEmpty = true := by
        have hsorts : Registry.builtin.sortIssues (q.orderBy.map SortKey.normalize) = [] := by
          refine (Registry.sortIssues_eq_nil_iff _ _).2 fun k hk => ?_
          obtain ⟨d, hd, -⟩ := Registry.isStored_iff.1 (Store.isStored_normalize_keys hkeys k hk)
          rw [hd]
          rfl
        show (Registry.builtin.issues _ ++ Registry.builtin.sortIssues _).isEmpty = true
        rw [h.accepted, hsorts]
        rfl
      constructor
      · show ((s.screener settings).run today { q with preferPushdown := true }).run.value.map Response.shown = _
        rw [Screener.run_value, hissues true, if_pos rfl, Store.routingOf_screener h.stored hkeys]
        exact Store.pushedAnswer_shown hs h hread hkeys settings
      · show ((s.screener settings).run today { q with preferPushdown := false }).run.value.map Response.shown = _
        rw [Screener.run_value, hissues false, if_pos rfl, Store.routingOf_screener h.stored hkeys]
        exact Store.computedAnswer_shown hs h.stored hkeys hmarket hdeadline hcap today
    refine ⟨?_, hstored⟩
    by_cases hkeys : ∀ k ∈ q.orderBy, Registry.builtin.isStored k.field = true
    · obtain ⟨hpushed, hcomputed⟩ := hstored hkeys
      have hfound (hint : Bool) : (answer hint).map Response.found = ((answer hint).map Response.shown).map Prod.snd := by
        cases answer hint <;> rfl
      rw [hfound, hfound, hpushed, hcomputed, Store.shownOf, Store.shownOf]
      unfold Store.answer
      cases s.isClosed <;> rfl
    · have hkey : ∃ k ∈ q.orderBy, Registry.builtin.isStored k.field = false := by simpa using hkeys
      have hroute (hint : Bool) := s.routingOf_screener_of_not_stored hkey settings hint
      have hvalue (hint : Bool) : answer hint =
          if ((s.screener settings).issuesOf q).isEmpty then (s.screener settings).computedAnswer today q
          else .error (.invalid ((s.screener settings).issuesOf q)) := by
        show ((s.screener settings).run today { q with preferPushdown := hint }).run.value = _
        rw [Screener.run_value, hroute]
        rfl
      rw [hvalue, hvalue]

/-! ## An answer both ways -/

/-- A low price to earnings, its bound given as a text and its field by an old name, and a name with `ma_` in it. -/
def cheapSigma : Condition :=
  .all [.leaf ⟨"pe_ratio", .lte, .literal (.text "15")⟩, .leaf ⟨"name", .contains, .literal (.text "ma_")⟩]

/-- A stock by its name and its price to earnings. -/
def stock (symbol name : String) (pe : Option Float) : Record :=
  ⟨symbol, fun c => if c = .name then some name else none, fun c => if c = .pe then pe else none⟩

/-- The store that two stocks are written to. -/
def twoStocks : Store :=
  { snapshots := (Named.empty.insert "A" (stock "A" "Sigma_1" (some 12.5)).stored).insert "B" (stock "B" "Omega" none).stored }

theorem leaves_cheapSigma : cheapSigma.normalize.leaves =
    [⟨"pe", .lte, .literal (.text "15")⟩, ⟨"name", .contains, .literal (.text "ma_")⟩] := rfl

theorem pushable_cheapSigma : cheapSigma.Pushable := by
  refine ⟨rfl, rfl, by decide, ?_⟩
  rw [leaves_cheapSigma]
  intro l hl d v hd hnumeric hright x hx
  rcases List.mem_cons.1 hl with rfl | hl
  · obtain rfl := Operand.literal.inj hright
    have hread : ∀ x ∈ (Literal.text "15").figures, x.isNaN = false := by decide
    exact hread x hx
  · obtain rfl := List.mem_singleton.1 hl
    obtain rfl := Operand.literal.inj hright
    have hread : ∀ x ∈ (Literal.text "ma_").figures, x.isNaN = false := by decide
    exact hread x hx

theorem legible_twoStocks : ∀ r ∈ twoStocks.records, cheapSigma.Legible r := by
  intro r hr l hl needle hop hright
  rw [leaves_cheapSigma] at hl
  rcases List.mem_cons.1 hl with rfl | hl
  · exact absurd hop (by decide)
  · obtain rfl := List.mem_singleton.1 hl
    obtain rfl := Literal.text.inj (Operand.literal.inj hright)
    refine ⟨by decide, fun c s hc hs => ⟨?_, toldApart_of_ascii (by decide) s⟩⟩
    obtain rfl : Column.text .name = c := Option.some.inj ((Column.ofName?_label (.text .name)).symm.trans hc)
    have hrecords : twoStocks.records = [(stock "A" "Sigma_1" (some 12.5)).stored, (stock "B" "Omega" none).stored] := rfl
    rw [hrecords] at hr
    rcases List.mem_cons.1 hr with rfl | hr
    · obtain rfl := Value.text.inj (Option.some.inj hs)
      decide
    · obtain rfl := List.mem_singleton.1 hr
      obtain rfl := Value.text.inj (Option.some.inj hs)
      decide

/-- The page of such stocks in all markets, the cheapest by price to book first. -/
def cheapSigmas : Request := { market := "all", conditions := cheapSigma, orderBy := [⟨"pb_ratio", .asc⟩] }

theorem routes_agree_on_two_stocks :
    let answer (hint : Bool) :=
      ((twoStocks.screener {}).run ⟨2024, 1, 2⟩ { cheapSigmas with preferPushdown := hint }).run.value
    (answer true).map Response.found = (answer false).map Response.found ∧
      (answer true).map Response.shown = twoStocks.shownOf {} .pushdown cheapSigmas := by
  have hwrites : [Store.Write.snapshot (stock "A" "Sigma_1" (some 12.5)), .snapshot (stock "B" "Omega" none)].foldlM
      Store.write {} = .ok twoStocks := rfl
  have hkept := Store.kept_of_writes hwrites
  obtain ⟨hfound, hshown⟩ := (routes_agree pushable_cheapSigma).2 twoStocks {} ⟨2024, 1, 2⟩ cheapSigmas hkept legible_twoStocks
    rfl (by decide +kernel) rfl (by decide +kernel)
  exact ⟨hfound, (hshown (by decide +kernel)).1⟩

/-- A name that has U+FFFD in it. -/
def replacementName : Condition := .leaf ⟨"name", .contains, .literal (.text "\uFFFD")⟩

/-- Without the store reading texts as they are the routes need not agree: no text here has a NUL, and yet the store finds the
name U+FFFE in a search for U+FFFD and the evaluation of the snapshot does not. -/
theorem routes_differ_on_noncharacters :
    replacementName.Pushable ∧ (stock "A" "\uFFFE" none).Kept ∧ HasNoNul "\uFFFD" ∧
      (∀ c s, (stock "A" "\uFFFE" none).cell? c = some (.text s) → HasNoNul s) ∧
      ∃ f st clauses, Registry.builtin.pushdown replacementName.normalize = .ok f ∧ f.statement = .ok st ∧
        st.clauses? = some clauses ∧ Clause.select clauses (stock "A" "\uFFFE" none) = true ∧
        (Context.snapshot (stock "A" "\uFFFE" none).snapshot).satisfies replacementName.normalize = false := by
  refine ⟨⟨by decide +kernel, by decide +kernel, by decide +kernel, ?_⟩, ?_, ?_, ?_, ?_⟩
  · intro l hl d v hd hnumeric hright x hx
    obtain rfl := List.mem_singleton.1 hl
    obtain rfl := Operand.literal.inj hright
    have hread : ∀ x ∈ (Literal.text "\uFFFD").figures, x.isNaN = false := by decide +kernel
    exact hread x hx
  · intro c x hx
    have hnone : (stock "A" "\uFFFE" none).number c = none := ite_self none
    rw [hnone] at hx
    exact absurd hx (by simp)
  · decide +kernel
  · intro c s hs
    have htext : s = "A" ∨ s = "\uFFFE" := by
      cases c with
      | symbol => exact .inl (Value.text.inj (Option.some.inj hs)).symm
      | text t =>
        obtain ⟨s', hs', heq⟩ := Option.map_eq_some_iff.1 hs
        obtain ⟨-, hname⟩ := Option.ite_none_right_eq_some.1 hs'
        obtain rfl := Option.some.inj hname
        exact .inr (Value.text.inj heq).symm
      | number n =>
        obtain ⟨x, -, heq⟩ := Option.map_eq_some_iff.1 hs
        exact absurd heq (by simp)
    rcases htext with rfl | rfl <;> decide +kernel
  · obtain ⟨st, hst, hclauses⟩ := @Filter.exists_statement [.contains "name" "\uFFFD"] [.contains (.text .name) "\uFFFD"] rfl
    refine ⟨_, st, _, rfl, hst, hclauses, ?_, ?_⟩
    · rw [Clause.select_clauses]
      decide +kernel
    · decide +kernel

end EquityScreen
