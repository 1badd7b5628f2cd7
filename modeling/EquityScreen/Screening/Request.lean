import EquityScreen.Calendar.Date
import EquityScreen.Condition.Wire
import EquityScreen.Series.Basic
import EquityScreen.Sorting

/-!
# Requests

A request for a screen: a market, a day, a condition, sort keys, a page and whether the store may answer. Every part may be
left out.
-/

namespace EquityScreen

open Json

/-- What a client asks for. -/
structure Request where
  market : String := "CN"
  /-- The day of the screen; without one it is today. -/
  asOf : Option Date := none
  conditions : Condition := .matchAll
  orderBy : List SortKey := []
  limit : Option Nat := none
  offset : Nat := 0
  /-- The store may answer where it can. -/
  preferPushdown : Bool := true

namespace Request

/-- The fields of a request. -/
def fields : List (Draft.Field Request) :=
  [⟨["market"], fun d r => return { r with market := ← d.readScalar asText }⟩,
    ⟨["as_of", "date"], fun d r => return { r with asOf := ← d.readScalar (asOptional Date.ofJson) }⟩,
    ⟨["conditions"], fun d r => return { r with conditions := ← d.readWhole 1 Condition.ofInput }⟩,
    ⟨["order_by"], fun d r => return { r with orderBy := ← d.readItems SortKey.ofDraft }⟩,
    ⟨["limit"], fun d r => return { r with limit := ← d.readScalar (asOptional asCount) }⟩,
    ⟨["offset"], fun d r => return { r with offset := ← d.readScalar asCount }⟩,
    ⟨["prefer_pushdown", "use_database_optimization"], fun d r => return { r with preferPushdown := ← d.readScalar asFlag }⟩]

/-- The request of a draft. -/
def ofDraft (d : Draft) : Read Request := d.readRecord fields {}

/-- The request of a document. -/
def ofJson (v : Json) : Read Request := ofDraft (.ofJson v)

/-- The market that a computed screen is restricted to, unless the request is for all. -/
def marketOnly? (r : Request) : Option String :=
  if r.market.isEmpty || Text.sameFolded r.market "all" then none else some r.market

end Request

end EquityScreen
