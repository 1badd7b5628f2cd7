import EquityScreen.Store.Document
import EquityScreen.Store.Tables

/-!
# Where a screen gets its data

A screen asks sources of data: a store for whole pages, and for single symbols a list of candidates, snapshots, bars and
quotes. Every question is a call. An answer is kept together with the calls it took (`Traced`), so that what a screen asked,
and that it asked nothing, can be stated of it. What a screen waits for symbol by symbol, snapshots and bars, may come too late.
-/

namespace EquityScreen

/-- A question to a source. -/
inductive Call where
  | candidates (market : Option String) (cap : Nat)
  | snapshot (symbol : String)
  | bars (symbol : String) (start finish : Date)
  | query (f : Filter) (sorts : List (ColumnSort String)) (page : Page)
  | quotes (symbols : List String)
  | statistics (field : String)
  | values (field : String) (limit : Nat)
  | industries

/-- The snapshot of a symbol, if there is one. -/
structure SnapshotAnswer where
  found : Except StoreError (Option Snapshot)
  /-- The answer comes after the time that a screen has for its symbols. -/
  late : Bool := false

/-- The bars of a symbol as a series, if there are any. -/
structure BarAnswer where
  series : Option Series
  /-- The answer comes after the time that a screen has for its symbols. -/
  late : Bool := false

/-- Where a screen gets its data. -/
structure Sources where
  candidates : Option String → Nat → Except StoreError (List String)
  snapshot : String → SnapshotAnswer
  bars : String → Date → Date → BarAnswer
  query : Filter → List (ColumnSort String) → Page → Except StoreError (List Row × Nat)
  quotes : List String → Except StoreError (Named Quote)
  statistics : String → Except StoreError Statistics
  values : String → Nat → Except StoreError (List String)
  industries : Except StoreError (List IndustryCount)

/-- The sources of a store that holds everything. -/
def Store.sources (s : Store) : Sources where
  candidates market cap := s.symbols market cap
  snapshot symbol := { found := (s.get? symbol).map (·.map Record.snapshot) }
  bars symbol start finish := { series := s.series? symbol start finish }
  query f sorts page := (s.screen f sorts page.limit page.offset).map fun (found, total) => (found.map Record.row, total)
  quotes symbols := s.quotesOf symbols
  statistics field := s.statistics field
  values field limit := s.distinct field limit
  industries := s.industries

/-- An answer with the calls it took, in the order they were made. -/
structure Traced (α : Type) where
  value : α
  calls : List Call

namespace Traced

instance : Monad Traced where
  pure a := ⟨a, []⟩
  bind t f := ⟨(f t.value).value, t.calls ++ (f t.value).calls⟩

/-- The answer to one call. -/
def ask {α : Type} (call : Call) (answer : α) : Traced α := ⟨answer, [call]⟩

/-- The answer to a call that is made as long as there is time for it. -/
def askInTime {α : Type} (isTime : Bool) (call : Call) (answer : α) : Traced α := ⟨answer, if isTime then [call] else []⟩

end Traced

end EquityScreen
