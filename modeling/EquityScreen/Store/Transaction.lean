import EquityScreen.Store.Tables

/-!
# Writing bars in a transaction

Bars are written all or none. A transaction writes one bar after another into the table, and for each it notes the bars of the
symbol as they were before. The first bar that cannot be written ends it: all that was written is then taken back, the last
first. So it is where the writes cannot be committed in the end. A transaction that is committed answers how many rows it has
written. Besides a bar that lacks a price, any step may fail for a reason of its own (`Faults`).
-/

namespace EquityScreen

/-- The map with what a name had before, which may be nothing. -/
def Named.restore {α : Type} (m : Named α) (name : String) : Option α → Named α
  | some v => m.insert name v
  | none => m.erase name

/-- The steps of a transaction that fail whatever is written, each with its error. -/
structure Faults where
  begins : Option StoreError := none
  /-- The write that has so many before it. -/
  writes : Nat → Option StoreError := fun _ => none
  commits : Option StoreError := none

/-- What a transaction has written so far. -/
structure Transaction where
  /-- The tables with what is written. -/
  store : Store
  /-- For each bar written its symbol with the bars that the symbol had before, the last first. -/
  replaced : List (String × Option (Named DailyBar))
  /-- How many rows are written. -/
  written : Nat

namespace Transaction

/-- A transaction that has written nothing. -/
def on (s : Store) : Transaction := ⟨s, [], 0⟩

/-- The transaction with one more bar written over the one of its day. -/
def put (t : Transaction) (faults : Faults) (b : DailyBar) : Except StoreError Transaction := do
  if let some e := faults.writes t.written then throw e
  let store ← t.store.putBar b
  return ⟨store, (b.symbol, t.store.bars.get? b.symbol) :: t.replaced, t.written + 1⟩

/-- The transaction with bars written up to the first that cannot be, and why that one cannot. -/
def putAll (t : Transaction) (faults : Faults) : List DailyBar → Transaction × Option StoreError
  | [] => (t, none)
  | b :: rest =>
    match t.put faults b with
    | .ok t => t.putAll faults rest
    | .error e => (t, some e)

/-- The tables with all that was written taken back. -/
def takenBack (t : Transaction) : Store :=
  { t.store with bars := t.replaced.foldl (fun bars e => bars.restore e.1 e.2) t.store.bars }

end Transaction

namespace Store

/-- The transaction that a store begins; a closed store begins none. -/
def beginTransaction (s : Store) (faults : Faults) : Except StoreError Transaction := do
  let t ← s.answer (Transaction.on s)
  if let some e := faults.begins then throw e
  return t

/-- What is answered when bars are written in one transaction, which is how many rows or why none, and the store that is left. -/
def upsertBars (s : Store) (bs : List DailyBar) (faults : Faults := {}) : Except StoreError Nat × Store :=
  match s.beginTransaction faults with
  | .error e => (.error e, s)
  | .ok t =>
    match t.putAll faults bs with
    | (t, some e) => (.error e, t.takenBack)
    | (t, none) =>
      match faults.commits with
      | some e => (.error e, t.takenBack)
      | none => (.ok t.written, t.store)

/-- The store with all bars written, one after another, or an error if one of them cannot be. -/
def importBars (s : Store) (bs : List DailyBar) : Except StoreError Store :=
  let (answer, left) := s.upsertBars bs
  answer.map fun _ => left

end Store

end EquityScreen
