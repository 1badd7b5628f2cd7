import EquityScreen.Result.Row
import EquityScreen.Sorting

/-!
# Sorting and paging a result

Rows are sorted by keys, the first key first: the list is sorted by each key in turn from the last to the first, and each
sort keeps the order of rows that are equal in its key. A row without the field comes after every row that has it, in either
direction. In one field numbers come before texts.

A page is a number of rows from an offset on. The limit lies between 1 and 500, and an offset is at most the greatest that
the store accepts.
-/

namespace EquityScreen

namespace Row

/-- The value a row is sorted by for a field, if it has one that is not missing. -/
def sortValue? (r : Row) (field : String) : Option Value :=
  if field = "symbol" then some (.text r.symbol) else (r.get? field).filter (!·.isMissing)

/-- The order of two rows by one key. -/
def compareBy (k : SortKey) (a b : Row) : Ordering :=
  k.direction.absentLast (a.sortValue? k.field) (b.sortValue? k.field)

end Row

/-- The keys that a result is sorted by: the largest market value first when there are none, and the symbol at last unless it
is a key already. -/
def effectiveSort (keys : List SortKey) : List SortKey :=
  let given := if keys.isEmpty then [⟨defaultSortField, .desc⟩] else keys
  if given.any (·.field == "symbol") then given else given ++ [⟨"symbol", .asc⟩]

/-- The rows sorted by the keys. -/
def sortRows (keys : List SortKey) (rows : List Row) : List Row :=
  keys.foldr (fun k rows => rows.mergeSort fun a b => (Row.compareBy k a b).isLE) rows

/-- A part of a result. -/
structure Page where
  limit : Nat
  offset : Nat
  deriving DecidableEq, Repr

namespace Page

/-- The greatest number of rows on a page. -/
def greatestLimit : Nat := 500

/-- The greatest offset that the store accepts. -/
def greatestOffset : Nat := Nat.pow 2 63 - 1

/-- The page of a request: 50 rows unless a limit is asked for, and never less than one. -/
def ofRequest (limit : Option Nat) (offset : Nat) : Page :=
  ⟨max 1 (min (limit.getD 50) greatestLimit), min offset greatestOffset⟩

/-- The rows of a page. -/
def cut {α : Type} (p : Page) (rows : List α) : List α :=
  (rows.drop p.offset).take p.limit

end Page

/-- The page of the sorted matches, and how many matches there are. -/
def assemble (matched : List Row) (keys : List SortKey) (p : Page) : List Row × Nat :=
  (p.cut (sortRows (effectiveSort keys) matched), matched.length)

end EquityScreen
