import EquityScreen.Store.Filter
import EquityScreen.Text.Ascii

/-!
# The statement of a filter

A checked filter is written as the body of a `WHERE` with a mark for each value it binds, and a checked sort as the body of
an `ORDER BY`. The only names in a statement are those of columns, and every value stands behind a mark. Rows that lack a
value come last in either direction, and the symbol breaks ties.
-/

namespace EquityScreen

namespace Relation

/-- The relation in a statement. -/
def symbol : Relation → String
  | gt => ">"
  | lt => "<"
  | gte => ">="
  | lte => "<="
  | eq => "="
  | ne => "!="

end Relation

/-- A pattern that matches the text itself: what a pattern reads as a wildcard or as the escape is escaped. -/
def escapeWildcards (cs : List Char) : List Char :=
  cs.flatMap fun c => if c = '%' ∨ c = '_' ∨ c = '\\' then ['\\', c] else [c]

/-- The pattern of the texts that contain the needle, once its ASCII letters are small. -/
def containsPattern (needle : String) : String :=
  String.ofList ('%' :: (escapeWildcards (Text.foldAscii needle).toList ++ ['%']))

/-- As many marks as there are values. -/
def marks (n : Nat) : String := Text.join ", " (List.replicate n "?")

namespace Predicate

/-- The predicate as a part of a `WHERE`. -/
def clause : Predicate Column → String
  | compare c rel _ => s!"{c.label} {rel.symbol} ?"
  | compareColumns c rel d => s!"{c.label} {rel.symbol} {d.label}"
  | range c _ _ => s!"{c.label} >= ? AND {c.label} <= ?"
  | among c vs => if vs.isEmpty then "0=1" else s!"{c.label} IN ({marks vs.length})"
  | outside c vs => if vs.isEmpty then s!"{c.label} IS NOT NULL" else s!"{c.label} NOT IN ({marks vs.length})"
  | contains c _ => s!"LOWER({c.label}) LIKE ? ESCAPE '\\'"

/-- The values behind the marks of the predicate. -/
def binds {κ : Type} : Predicate κ → List Value
  | compare _ _ v => [v]
  | compareColumns .. => []
  | range _ low high => [.number low, .number high]
  | among _ vs | outside _ vs => vs
  | contains _ needle => [.text (containsPattern needle)]

end Predicate

/-- A condition on rows in the language of the store: its text and the values behind its marks. -/
structure Statement where
  condition : String
  binds : List Value

/-- The statement of a filter, unless it names a column that the table does not have. -/
def Filter.statement (f : Filter) : Except UnknownColumn Statement := do
  let checked ← f.mapM Predicate.check
  return ⟨Text.join " AND " ("1=1" :: checked.map Predicate.clause), checked.flatMap Predicate.binds⟩

/-- The statement that makes the snapshot table. Board and exchange are columns that are added to it afterwards. -/
def snapshotTable : String :=
  let texts := [TextColumn.name, .industry, .area, .market].map fun c => c.label ++ " TEXT"
  let numbers := NumberColumn.all.map fun c => c.label ++ " REAL"
  let lines := "symbol TEXT PRIMARY KEY" :: texts ++ numbers ++
    [TextColumn.tradeDate.label ++ " TEXT", "updated_at INTEGER DEFAULT (strftime('%s', 'now'))"]
  "CREATE TABLE IF NOT EXISTS stock_snapshots (\n    " ++ Text.join ",\n    " lines ++ "\n)"

/-- The direction in an `ORDER BY`. -/
def Direction.keyword : Direction → String
  | asc => "ASC"
  | desc => "DESC"

/-- The sort in an `ORDER BY`. -/
def ColumnSort.clauses (s : ColumnSort Column) : List String :=
  [s!"{s.column.label} IS NULL",
    s!"{s.column.label} {s.direction.keyword}"]

/-- The body of an `ORDER BY`, unless a sort names a column that the table does not have. -/
def orderBy (sorts : List (ColumnSort String)) : Except UnknownColumn String := do
  let checked ← sorts.mapM ColumnSort.check
  return Text.join ", " (checked.flatMap ColumnSort.clauses ++ ["symbol ASC"])

end EquityScreen
