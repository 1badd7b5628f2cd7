import EquityScreen.Named
import EquityScreen.Store.Filter

/-!
# The document of a filter

A filter is shown as a document: for each column an object of what is asked of it. Predicates on one column are merged, and
of two that ask in the same way the later one stands. Columns, and what is asked of a column, are in increasing order of
their names.
-/

namespace EquityScreen

/-- The relation as a document names it. -/
def Relation.key (r : Relation) : String := "$" ++ r.name

/-- A pattern of the text itself: every character with a meaning of its own in a pattern is escaped. -/
def escapePattern (s : String) : String :=
  String.ofList (s.toList.flatMap fun c => if "\\.+*?()|[]\x7b\x7d^$".toList.contains c then ['\\', c] else [c])

/-- What a predicate asks of its column. -/
def Predicate.asked : Predicate String → List (String × Json)
  | compare _ rel v => [(rel.key, v.toJson)]
  | compareColumns c rel d => [("$expr", .object [(rel.key, .texts ["$" ++ c, "$" ++ d])])]
  | range _ low high => [("$gte", .real low), ("$lte", .real high)]
  | among _ vs => [("$in", .list (vs.map Value.toJson))]
  | outside _ vs => [("$nin", .list (vs.map Value.toJson))]
  | contains _ needle => [("$options", .text "i"), ("$regex", .text (escapePattern needle))]

/-- The map with entries written over it, one after another. -/
def Named.overlay {α : Type} (m : Named α) (entries : List (String × α)) : Named α :=
  entries.foldl (fun m e => m.insert e.1 e.2) m

/-- What a filter asks, by column. -/
def Filter.asked (f : Filter) : Named (Named Json) :=
  f.foldl (fun doc p => doc.insert p.column (((doc.get? p.column).getD .empty).overlay p.asked)) .empty

/-- The document of a filter. -/
def Filter.document (f : Filter) : Json :=
  .object ((Filter.asked f).entries.map fun e => (e.1, .object e.2.entries))

end EquityScreen
