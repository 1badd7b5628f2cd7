import EquityScreen.Proofs.Lemmas.Contexts

/-!
# A series read as a snapshot

Where nothing crosses, a series with a snapshot is judged as one snapshot: the snapshot with the last number of every column
laid over it (`Series.overlay`). A crossing reads one day more, so the last two days of a series stand for all of them. Columns
and snapshot keys that a condition does not name are never read. These are the three parts of `series_refines_snapshot`.
-/

namespace EquityScreen
namespace Series

/-- The snapshot with a column laid over it: its last number, or nothing where that is missing. -/
def layOver (s : Series) (m : Snapshot) (name : String) : Snapshot :=
  match s.lastPresent? name with
  | some v => m.insert name v
  | none => m.erase name

/-- The snapshot with every column of the series laid over it. -/
def overlay (s : Series) (snapshot : Option Snapshot) : Snapshot :=
  s.columns.names.foldl s.layOver (snapshot.getD .empty)

/-- The last days of a series, so many of them, and the last numbers of every column. -/
def lastDays (s : Series) (n : Nat) : Series :=
  ⟨s.dates.drop (s.length - n), s.columns.map fun xs => xs.drop (xs.length - n)⟩

variable (s : Series)

/-! ## The overlay -/

theorem get?_layOver (m : Snapshot) (name field : String) :
    (s.layOver m name).get? field = if field = name then s.lastPresent? name else m.get? field := by
  unfold layOver
  cases s.lastPresent? name <;> simp

/-- Of columns laid over a snapshot each shows itself, and nothing else is changed. -/
theorem get?_foldl_layOver (names : List String) (m : Snapshot) (field : String) :
    (names.foldl s.layOver m).get? field = if field ∈ names then s.lastPresent? field else m.get? field := by
  induction names generalizing m with
  | nil => simp
  | cons name rest ih =>
    rw [List.foldl_cons, ih, get?_layOver]
    by_cases hrest : field ∈ rest
    · rw [if_pos hrest, if_pos (List.mem_cons_of_mem _ hrest)]
    · by_cases hname : field = name
      · simp [hname]
      · simp [hrest, hname]

/-- The overlay has what is present of a series and its snapshot, under every name. -/
theorem present?_overlay (snapshot : Option Snapshot) (field : String) :
    (Context.snapshot (s.overlay snapshot)).present? field = (Context.series s snapshot).present? field := by
  have hget : (s.overlay snapshot).get? field =
      if s.columns.contains field then s.lastPresent? field else snapshot.bind (·.get? field) := by
    rw [overlay, get?_foldl_layOver]
    simp only [← Named.contains_iff_mem_names]
    cases snapshot <;> rfl
  rw [Context.present?_series, Context.present?, Context.current?, hget]
  split
  · rw [lastPresent?, Option.filter_filter]
    simp only [Bool.and_self]
  · rfl

/-! ## The last days -/

theorem column?_lastDays (n : Nat) (name : String) :
    (s.lastDays n).column? name = (s.column? name).map fun xs => xs.drop (xs.length - n) := Named.get?_map _ _ _

/-- What lies less than so many days back is read from the last days alone. -/
theorem fromEnd?_lastDays {n back : Nat} (hback : back < n) (name : String) :
    (s.lastDays n).fromEnd? name back = s.fromEnd? name back := by
  rw [fromEnd?, fromEnd?, column?_lastDays]
  cases s.column? name with
  | none => rfl
  | some xs =>
    show (xs.drop (xs.length - n)).reverse[back]? = xs.reverse[back]?
    rw [List.reverse_drop, List.getElem?_take]
    by_cases hlt : back < xs.length
    · rw [if_pos (by omega)]
    · have hnone : xs.reverse[back]? = none := List.getElem?_eq_none (by rw [List.length_reverse]; omega)
      rw [hnone, ite_self]

end Series

namespace Context

/-- A series and its last two days agree on every field. -/
theorem agreeOn_lastDays (s : Series) (snapshot : Option Snapshot) (field : String) :
    (series (s.lastDays 2) snapshot).AgreeOn (series s snapshot) field where
  present := by
    have hcontains : (s.lastDays 2).columns.contains field = s.columns.contains field := Named.contains_map _ _ _
    rw [present?_series, present?_series, hcontains, Series.lastPresent?, Series.lastPresent?, Series.last?, Series.last?,
      s.fromEnd?_lastDays (by omega)]
  past back hback := by rw [past?, past?, s.fromEnd?_lastDays hback]

/-- Series with the same column of a field agree on it if their snapshots do. -/
theorem agreeOn_of_column {s s' : Series} {snapshot snapshot' : Option Snapshot} {field : String}
    (hcolumn : s'.column? field = s.column? field)
    (hsnapshot : snapshot'.bind (·.get? field) = snapshot.bind (·.get? field)) :
    (series s' snapshot').AgreeOn (series s snapshot) field where
  present := by
    have hcontains : s'.columns.contains field = s.columns.contains field := by
      rw [Named.contains_eq_isSome, Named.contains_eq_isSome]
      exact congrArg Option.isSome hcolumn
    rw [present?_series, present?_series, hcontains, hsnapshot, Series.lastPresent?, Series.lastPresent?, Series.last?,
      Series.last?, Series.fromEnd?, Series.fromEnd?, hcolumn]
  past back _ := by rw [past?, past?, Series.fromEnd?, Series.fromEnd?, hcolumn]

end Context

/-- A condition without crossings holds of a series with a snapshot when it holds of the snapshot that the series is laid over.
Any condition holds of a series when it holds of the last two days of it. And it holds of all series and snapshots alike that
have the same columns and the same values under the names it uses. -/
theorem series_refines_snapshot (s : Series) (snapshot : Option Snapshot) (c : Condition) :
    ((∀ l ∈ c.leaves, l.op.isCross = false) →
      (Context.series s snapshot).satisfies c = (Context.snapshot (s.overlay snapshot)).satisfies c) ∧
    (Context.series (s.lastDays 2) snapshot).satisfies c = (Context.series s snapshot).satisfies c ∧
    ∀ (s' : Series) (snapshot' : Option Snapshot),
      (∀ field ∈ c.fields, s'.column? field = s.column? field ∧
        snapshot'.bind (·.get? field) = snapshot.bind (·.get? field)) →
      (Context.series s' snapshot').satisfies c = (Context.series s snapshot).satisfies c := by
  refine ⟨fun hcross => ?_, ?_, fun s' snapshot' hsame => ?_⟩
  · exact Context.satisfies_congr_of_present hcross fun field _ => (s.present?_overlay snapshot field).symm
  · exact Context.satisfies_congr fun field _ => Context.agreeOn_lastDays s snapshot field
  · exact Context.satisfies_congr fun field hfield => Context.agreeOn_of_column (hsame field hfield).1 (hsame field hfield).2

/-- Three days of a stock, on the last of which it fell through its mean; of the first and the last no change is known. -/
def fallingStock : Series :=
  ⟨[⟨2024, 1, 2⟩, ⟨2024, 1, 3⟩, ⟨2024, 1, 4⟩],
    .ofList [("close", [10.0, 12.0, 9.0]), ("ma5", [10.0, 11.0, 10.25]), ("pct_chg", [notANumber, 20.0, notANumber])]⟩

/-- What is stored of the stock, with a change of another day. -/
def fallingSnapshot : Snapshot := .ofList [("pct_chg", .number 20.0), ("pe", .number 8.0)]

/-- The change that is stored is not the stock's change on its last day, so one of two conditions on the overlay holds and the
other does not; the fall is seen from two days; and neither the snapshot nor the change is read for it. -/
theorem fall_through_the_mean :
    let cheap : Condition := .all [.leaf (.withLiteral "close" .lt (.number 10.0)),
      .any [.leaf (.withLiteral "pct_chg" .gt (.number 0.0)), .leaf (.withLiteral "pe" .lt (.number 9.0))]]
    let rising : Condition := .leaf (.withLiteral "pct_chg" .gt (.number 0.0))
    let falls : Condition := .leaf (.against "close" .crossDown "ma5")
    (Context.snapshot (fallingStock.overlay (some fallingSnapshot))).satisfies cheap = true ∧
      (Context.snapshot (fallingStock.overlay (some fallingSnapshot))).satisfies rising = false ∧
      (fallingStock.lastDays 2).length = 2 ∧
      (Context.series (fallingStock.lastDays 2) (some fallingSnapshot)).satisfies falls = true ∧
      (Context.series (fallingStock.insert "pct_chg" [0.0, 0.0, 0.0]) none).satisfies falls = true := by
  intro cheap rising falls
  have hsame : ∀ field ∈ falls.fields,
      (fallingStock.insert "pct_chg" [0.0, 0.0, 0.0]).column? field = fallingStock.column? field ∧
        (none : Option Snapshot).bind (·.get? field) = (some fallingSnapshot).bind (·.get? field) := by
    decide
  have hfalls : (Context.series fallingStock (some fallingSnapshot)).satisfies falls = true := by rfl
  refine ⟨?_, ?_, rfl, ?_, ?_⟩
  · rw [← (series_refines_snapshot fallingStock (some fallingSnapshot) cheap).1 (by decide)]
    rfl
  · rw [← (series_refines_snapshot fallingStock (some fallingSnapshot) rising).1 (by decide)]
    rfl
  · rw [(series_refines_snapshot fallingStock (some fallingSnapshot) falls).2.1, hfalls]
  · rw [(series_refines_snapshot fallingStock (some fallingSnapshot) falls).2.2 _ none hsame, hfalls]

end EquityScreen
