import EquityScreen.Proofs.Lemmas.Orders

/-!
# Rows sorted by keys

What it means that rows are sorted is said first and without a sort. One key puts a row ahead of another by what the two give
in its field (`SortKey.Ahead`): a row that gives nothing there is behind every row that gives something, in either direction.
Of several keys the first that puts one of two rows ahead decides (`AheadBy`). Rows that no key puts ahead of one another stay
in the order they had (`SortedStably`). There is one list that is sorted in this sense, and it is what the sorts in turn, from
the last key to the first, come to (`rows_sorted_stably`).
-/

namespace EquityScreen

/-! ## The order of one key -/

/-- The one value comes before the other where values ascend: of two numbers the smaller one, and `-0.0` before `0.0`; of two
texts the one that is less by its characters; and every number before every text. -/
inductive Value.Precedes : Value → Value → Prop where
  | numbers {x y : Float} : x < y → Precedes (.number x) (.number y)
  | zeros : Precedes (.number (-0.0)) (.number 0.0)
  | texts {s t : String} : s < t → Precedes (.text s) (.text t)
  | mixed (x : Float) (s : String) : Precedes (.number x) (.text s)

/-- What a row gives to be sorted by in a field: its symbol for `symbol`, and else the value it has of the field, unless that
is missing. -/
inductive Row.Gives (r : Row) (field : String) : Value → Prop where
  | symbol : field = "symbol" → Gives r field (.text r.symbol)
  | value {v : Value} : field ≠ "symbol" → r.get? field = some v → v.isMissing = false → Gives r field v

/-- The key puts the one row ahead of the other. -/
inductive SortKey.Ahead (k : SortKey) (a b : Row) : Prop where
  | present {v : Value} : a.Gives k.field v → (∀ w, ¬b.Gives k.field w) → Ahead k a b
  | ascending {v w : Value} : k.direction = .asc → a.Gives k.field v → b.Gives k.field w → v.Precedes w → Ahead k a b
  | descending {v w : Value} : k.direction = .desc → a.Gives k.field v → b.Gives k.field w → w.Precedes v → Ahead k a b

/-- Values that are not missing come before one another as they are ordered. -/
theorem Value.precedes_iff {v w : Value} (hv : v.isMissing = false) (hw : w.isMissing = false) :
    v.Precedes w ↔ v.order w = .lt := by
  cases v with
  | number x =>
    cases w with
    | number y =>
      show _ ↔ compare (place x) (place y) = .lt
      rw [compare_lt_iff_lt, place_lt_iff hv hw]
      constructor
      · intro h
        cases h with
        | numbers hlt => exact .inl hlt
        | zeros => exact .inr ⟨rfl, rfl⟩
      · rintro (hlt | ⟨rfl, rfl⟩)
        · exact .numbers hlt
        · exact .zeros
    | text t => exact ⟨fun _ => rfl, fun _ => .mixed x t⟩
  | text s =>
    cases w with
    | number y =>
      constructor
      · rintro ⟨⟩
      · intro h
        exact absurd h (by simp [Value.order])
    | text t =>
      show _ ↔ compareOfLessAndEq s t = .lt
      rw [compareOfLessAndEq_eq_lt]
      constructor
      · rintro (_ | _ | hlt)
        exact hlt
      · exact .texts

namespace Row

/-- What a row gives is the value it is sorted by. -/
theorem gives_iff {r : Row} {field : String} {v : Value} : r.Gives field v ↔ r.sortValue? field = some v := by
  rw [sortValue?]
  split
  · rename_i hsymbol
    constructor
    · rintro (_ | ⟨hne, -, -⟩)
      · rfl
      · exact absurd hsymbol hne
    · intro h
      obtain rfl := Option.some.inj h
      exact .symbol hsymbol
  · rename_i hne
    rw [Option.filter_eq_some_iff, Bool.not_eq_true']
    constructor
    · rintro (hsymbol | ⟨-, hv, hmissing⟩)
      · exact absurd hsymbol hne
      · exact ⟨hv, hmissing⟩
    · rintro ⟨hv, hmissing⟩
      exact .value hne hv hmissing

/-- No row is sorted by a missing value. -/
theorem Gives.not_missing {r : Row} {field : String} {v : Value} (h : r.Gives field v) : v.isMissing = false := by
  cases h with
  | symbol => rfl
  | value _ _ hmissing => exact hmissing

end Row

/-- A key puts a row ahead when the comparison by the key does. -/
theorem SortKey.ahead_iff {k : SortKey} {a b : Row} : k.Ahead a b ↔ Row.compareBy k a b = .lt := by
  rw [Row.compareBy]
  cases ha : a.sortValue? k.field with
  | none =>
    have hnone : ∀ v, ¬a.Gives k.field v := fun v hv => by simp [Row.gives_iff, ha] at hv
    constructor
    · rintro (⟨hv, -⟩ | ⟨-, hv, -, -⟩ | ⟨-, hv, -, -⟩) <;> exact absurd hv (hnone _)
    · intro h
      cases hb : b.sortValue? k.field <;> exact absurd h (by simp [hb, Direction.absentLast])
  | some v =>
    have hv : a.Gives k.field v := Row.gives_iff.2 ha
    have honly : ∀ {v'}, a.Gives k.field v' → v' = v := fun hv' =>
      Option.some.inj ((Row.gives_iff.1 hv').symm.trans ha)
    cases hb : b.sortValue? k.field with
    | none =>
      exact ⟨fun _ => rfl, fun _ => .present hv fun w hw => by simp [Row.gives_iff, hb] at hw⟩
    | some w =>
      have hw : b.Gives k.field w := Row.gives_iff.2 hb
      have honly' : ∀ {w'}, b.Gives k.field w' → w' = w := fun hw' =>
        Option.some.inj ((Row.gives_iff.1 hw').symm.trans hb)
      show _ ↔ k.direction.apply (v.order w) = .lt
      cases hd : k.direction with
      | asc =>
        rw [Direction.apply, ← Value.precedes_iff hv.not_missing hw.not_missing]
        constructor
        · rintro (⟨-, hnone⟩ | ⟨-, hv', hw', h⟩ | ⟨hdesc, -, -, -⟩)
          · exact absurd hw (hnone w)
          · rwa [honly hv', honly' hw'] at h
          · exact absurd (hd.symm.trans hdesc) (by decide)
        · exact .ascending hd hv hw
      | desc =>
        rw [Direction.apply, Ordering.swap_eq_lt, order_swap Value.order v w, Ordering.swap_eq_gt,
          ← Value.precedes_iff hw.not_missing hv.not_missing]
        constructor
        · rintro (⟨-, hnone⟩ | ⟨hasc, -, -, -⟩ | ⟨-, hv', hw', h⟩)
          · exact absurd hw (hnone w)
          · exact absurd (hd.symm.trans hasc) (by decide)
          · rwa [honly hv', honly' hw'] at h
        · exact .descending hd hv hw

/-! ## The order of several keys -/

/-- The keys put the one row ahead of the other: the first key that puts either ahead puts this one. -/
inductive AheadBy : List SortKey → Row → Row → Prop where
  | first {k : SortKey} {rest : List SortKey} {a b : Row} : k.Ahead a b → AheadBy (k :: rest) a b
  | later {k : SortKey} {rest : List SortKey} {a b : Row} :
      ¬k.Ahead a b → ¬k.Ahead b a → AheadBy rest a b → AheadBy (k :: rest) a b

/-- The rows are equal on all keys: none puts either ahead. -/
def Tied (keys : List SortKey) (a b : Row) : Prop :=
  ∀ k ∈ keys, ¬k.Ahead a b ∧ ¬k.Ahead b a

/-- The rows sorted by the keys: the same rows, none of them ahead of one that stands before it, and rows that are equal on all
keys in the order they had. -/
structure SortedStably (keys : List SortKey) (rows sorted : List Row) : Prop where
  perm : sorted.Perm rows
  ordered : sorted.Pairwise fun a b => ¬AheadBy keys b a
  stable : ∀ tied : List Row, tied.Sublist rows → tied.Pairwise (Tied keys) → tied.Sublist sorted

/-- No key puts a row ahead of another that the comparison by the key finds equal, and of no other. -/
theorem SortKey.tied_iff {k : SortKey} {a b : Row} : ¬k.Ahead a b ∧ ¬k.Ahead b a ↔ Row.compareBy k a b = .eq := by
  rw [ahead_iff, ahead_iff, order_swap (Row.compareBy k) b a, Ordering.swap_eq_lt]
  cases Row.compareBy k a b <;> decide

/-- The keys put a row ahead when all comparisons at once do. -/
theorem aheadBy_iff {keys : List SortKey} {a b : Row} :
    AheadBy keys a b ↔ lexOrder (keys.map Row.compareBy) a b = .lt := by
  induction keys with
  | nil =>
    constructor
    · rintro ⟨⟩
    · intro h
      exact absurd h (by simp [lexOrder])
  | cons k rest ih =>
    show _ ↔ (Row.compareBy k a b).then (lexOrder (rest.map Row.compareBy) a b) = .lt
    rw [Ordering.then_eq_lt, ← ih, ← SortKey.ahead_iff, ← SortKey.tied_iff]
    constructor
    · rintro (h | ⟨hab, hba, h⟩)
      · exact .inl h
      · exact .inr ⟨⟨hab, hba⟩, h⟩
    · rintro (h | ⟨⟨hab, hba⟩, h⟩)
      · exact .first h
      · exact .later hab hba h

/-- Rows are equal on all keys when all comparisons at once find them equal. -/
theorem tied_iff {keys : List SortKey} {a b : Row} :
    Tied keys a b ↔ lexOrder (keys.map Row.compareBy) a b = .eq := by
  induction keys with
  | nil => simp [Tied, lexOrder]
  | cons k rest ih =>
    show _ ↔ (Row.compareBy k a b).then (lexOrder (rest.map Row.compareBy) a b) = .eq
    rw [Ordering.then_eq_eq, ← ih, ← SortKey.tied_iff, Tied, List.forall_mem_cons, Tied]

/-- A row is not ahead of another that stands before it in the order of all comparisons at once, or level with it. -/
theorem not_aheadBy_iff {keys : List SortKey} {a b : Row} :
    ¬AheadBy keys b a ↔ (lexOrder (keys.map Row.compareBy) a b).isLE = true := by
  rw [aheadBy_iff, order_swap (lexOrder _) b a, Ordering.swap_eq_lt]
  cases lexOrder (keys.map Row.compareBy) a b <;> decide

/-! ## The sorted rows -/

/-- Sorts in turn, from the last key to the first, sort the rows by all keys and keep the order of equal rows. -/
theorem sortedStably_sortRows (keys : List SortKey) (rows : List Row) : SortedStably keys rows (sortRows keys rows) where
  perm := perm_sortRows keys rows
  ordered := (pairwise_sortRows keys rows).imp not_aheadBy_iff.2
  stable tied hsub htied := by
    refine sublist_of_classes (lexOrder (keys.map Row.compareBy)) hsub (htied.imp tied_iff.1) fun a => ?_
    rw [sortRows_eq_foldr]
    exact filter_foldr_mergeSort _ transCmp_of_mem_keys a rows

/-- Rows that are sorted keep each class of equal rows as it was. -/
theorem SortedStably.filter_eq {keys : List SortKey} {rows sorted : List Row} (h : SortedStably keys rows sorted) (a : Row) :
    sorted.filter (lexOrder (keys.map Row.compareBy) a · == .eq) =
      rows.filter (lexOrder (keys.map Row.compareBy) a · == .eq) := by
  have htied := (pairwise_class (lexOrder (keys.map Row.compareBy)) a rows).imp tied_iff.2
  exact filter_eq_of_perm h.perm (h.stable _ List.filter_sublist htied)

/-- There is no other way to sort the rows. -/
theorem SortedStably.unique {keys : List SortKey} {rows l l' : List Row} (h : SortedStably keys rows l)
    (h' : SortedStably keys rows l') : l = l' := by
  refine eq_of_classes (lexOrder (keys.map Row.compareBy)) (h.ordered.imp not_aheadBy_iff.1)
    (h'.ordered.imp not_aheadBy_iff.1) fun a => ?_
  rw [h.filter_eq, h'.filter_eq]

/-- Sorting rows by keys gives the one list of the same rows that is in the order of the keys, the first key first, and has the
rows that are equal on all keys in the order they had. Of every key, that a row is not ahead of another is a total preorder of
rows, and the comparison by the key tells which. -/
theorem rows_sorted_stably (keys : List SortKey) (rows : List Row) :
    (∀ sorted, SortedStably keys rows sorted ↔ sorted = sortRows keys rows) ∧
      ∀ k : SortKey,
        (∀ a b, (Row.compareBy k a b = .lt ↔ k.Ahead a b) ∧ (Row.compareBy k a b = .gt ↔ k.Ahead b a)) ∧
        (∀ a, ¬k.Ahead a a) ∧ (∀ a b, ¬k.Ahead b a ∨ ¬k.Ahead a b) ∧
        ∀ a b c, ¬k.Ahead b a → ¬k.Ahead c b → ¬k.Ahead c a := by
  refine ⟨fun sorted => ⟨fun h => h.unique (sortedStably_sortRows keys rows), ?_⟩, fun k => ?_⟩
  · rintro rfl
    exact sortedStably_sortRows keys rows
  · have hgt : ∀ a b, Row.compareBy k a b = .gt ↔ k.Ahead b a := by
      intro a b
      rw [SortKey.ahead_iff, order_swap (Row.compareBy k) b a, Ordering.swap_eq_lt]
    have hle : ∀ {a b}, ¬k.Ahead b a ↔ (Row.compareBy k a b).isLE = true := by
      intro a b
      rw [← hgt]
      cases Row.compareBy k a b <;> decide
    refine ⟨fun a b => ⟨SortKey.ahead_iff.symm, hgt a b⟩, fun a => ?_, fun a b => ?_, fun a b c hab hbc => ?_⟩
    · rw [hle, (Std.ReflCmp.compare_self : Row.compareBy k a a = .eq)]
      rfl
    · rw [hle, hle, ← Bool.or_eq_true]
      exact order_total (Row.compareBy k) a b
    · rw [hle] at hab hbc ⊢
      exact order_trans _ a b c hab hbc

/-- A row with a price to earnings, if it has one. -/
def pricedRow (symbol : String) (pe : Option Value) : Row := ⟨symbol, pe.elim .empty (Named.empty.insert "pe")⟩

/-- Four rows, the last two of which give no price to earnings: one has none, and that of the other is missing. -/
def fourRows : List Row :=
  [pricedRow "A" (some (.text "low")), pricedRow "C" (some (.number 8.0)), pricedRow "D" none,
    pricedRow "B" (some (.number notANumber))]

/-- With the greatest value first texts stand before numbers and the rows that give none last. Such rows stay as they are. -/
theorem rows_in_order_stay :
    let k : SortKey := ⟨"pe", .desc⟩
    SortedStably [k] fourRows fourRows ∧ sortRows [k] fourRows = fourRows ∧ ¬k.Ahead fourRows[1] fourRows[0] ∧
      ¬k.Ahead fourRows[2] fourRows[1] ∧ ¬k.Ahead fourRows[2] fourRows[0] := by
  intro k
  obtain ⟨hsorted, hkeys⟩ := rows_sorted_stably [k] fourRows
  obtain ⟨hcompare, -, -, htrans⟩ := hkeys k
  have hstay : SortedStably [k] fourRows fourRows := by
    refine ⟨.refl _, List.Pairwise.imp not_aheadBy_iff.2 ?_, fun tied hsub _ => hsub⟩
    decide
  have hnumber : ¬k.Ahead fourRows[1] fourRows[0] := by
    rw [← (hcompare _ _).2]
    decide
  have hnone : ¬k.Ahead fourRows[2] fourRows[1] := by
    rw [← (hcompare _ _).2]
    decide
  exact ⟨hstay, ((hsorted fourRows).1 hstay).symm, hnumber, hnone, htrans _ _ _ hnumber hnone⟩

end EquityScreen
