import EquityScreen.Field.Descriptor
import EquityScreen.Result.Order
import EquityScreen.Result.Quote
import EquityScreen.Series.Basic
import EquityScreen.Store.Selection
import EquityScreen.Store.Sum

/-!
# The tables of the store

The store keeps three tables: snapshots by symbol, daily bars by symbol and day, quotes by symbol. A write with a key that is
there replaces what it holds. Bars are written all or none. A store that is closed answers nothing, except where the answer
needs no table.
-/

namespace EquityScreen

open Json

/-- Why the store has no answer. -/
inductive StoreError where
  | unknownColumn (e : UnknownColumn)
  /-- A page with a negative limit or offset. -/
  | negativePage (limit offset : Int)
  | closed
  /-- A statement that is no text of the store's language. -/
  | unreadable
  /-- A bar lacks a price. -/
  | missingPrice
  /-- A column of numbers was asked for texts. -/
  | notText
  /-- Another source of data failed, and says why. -/
  | unavailable (reason : String)
  deriving DecidableEq, Repr

/-- The text of an error. -/
def StoreError.message : StoreError → String
  | .unknownColumn e => e.message
  | .negativePage limit offset => s!"Query error: negative page: limit {limit}, offset {offset}"
  | .closed => "attempted to acquire a connection on a closed pool"
  | .unreadable => "a statement cannot be read"
  | .missingPrice => "a bar lacks a price"
  | .notText => "a column of numbers has no texts"
  | .unavailable reason => reason

/-- A bar as the store keeps it, with its day as a text. -/
structure DailyBar where
  symbol : String
  day : String
  openPrice : Float
  high : Float
  low : Float
  close : Float
  volume : Float
  amount : Option Float

namespace DailyBar

/-- The fields of a bar's record. -/
def names : List (List String) :=
  [["symbol"], ["trade_date"], ["open"], ["high"], ["low"], ["close"], ["volume"], ["amount"]]

/-- The bar of a document; without a volume it has none. -/
def ofJson (v : Json) : Read DailyBar := do
  let fs ← Json.fields names v
  return ⟨← fs.required 0 asText, ← fs.required 1 asText, ← fs.required 2 asNumber, ← fs.required 3 asNumber,
    ← fs.required 4 asNumber, ← fs.required 5 asNumber, ← fs.orElse 6 0.0 asNumber,
    ← fs.orElse 7 none (asOptional asNumber)⟩

/-- The document of a bar. -/
def toJson (b : DailyBar) : Json :=
  .object [("symbol", .text b.symbol), ("trade_date", .text b.day), ("open", .real b.openPrice), ("high", .real b.high),
    ("low", .real b.low), ("close", .real b.close), ("volume", .real b.volume), ("amount", orNull .real b.amount)]

/-- The bar as the table keeps it, unless it lacks a price. A volume that is missing is none. -/
def stored? (b : DailyBar) : Option DailyBar := do
  return { b with
    openPrice := ← Record.storedNumber b.openPrice
    high := ← Record.storedNumber b.high
    low := ← Record.storedNumber b.low
    close := ← Record.storedNumber b.close
    volume := (Record.storedNumber b.volume).getD 0.0
    amount := b.amount.bind Record.storedNumber }

/-- The bar on its day, if the text is one. -/
def bar? (b : DailyBar) : Option Bar := do
  return ⟨← Date.readStored? b.day, b.openPrice, b.high, b.low, b.close, b.volume, b.amount⟩

end DailyBar

/-- A quote with its symbol. -/
structure QuoteRecord where
  symbol : String
  quote : Quote

namespace QuoteRecord

/-- The fields of a quote's record. -/
def names : List (List String) := ["symbol"] :: Quote.names

/-- The quote of a document; what is missing or null has no value. -/
def ofJson (v : Json) : Read QuoteRecord := do
  let fs ← Json.fields names v
  let figure (i : Nat) : Read (Option Float) := fs.orElse i none (asOptional asNumber)
  return ⟨← fs.required 0 asText, ⟨← figure 1, ← figure 2, ← figure 3, ← figure 4⟩⟩

end QuoteRecord

/-- The quote as the table keeps it. -/
def Quote.stored (q : Quote) : Quote :=
  let keep (x : Option Float) : Option Float := x.bind Record.storedNumber
  ⟨keep q.close, keep q.pctChg, keep q.amount, keep q.volume⟩

/-- How many symbols an industry has. -/
structure IndustryCount where
  industry : String
  count : Nat

/-- The document of an industry's count. -/
def IndustryCount.toJson (c : IndustryCount) : Json :=
  .object [("industry", .text c.industry), ("count", .nat c.count)]

/-- The tables, and whether they may still be asked. -/
structure Store where
  snapshots : Named Record := .empty
  bars : Named (Named DailyBar) := .empty
  quotes : Named Quote := .empty
  isClosed : Bool := false

/-- As many items as a limit allows; a negative one allows all. -/
def limited {α : Type} (limit : Int) (items : List α) : List α :=
  if limit < 0 then items else items.take limit.toNat

namespace Store

/-- An answer from the tables, unless the store is closed. -/
def answer {α : Type} (s : Store) (a : α) : Except StoreError α :=
  if s.isClosed then .error .closed else .ok a

/-- The records in order of their symbols. -/
def records (s : Store) : List Record := s.snapshots.entries.map (·.2)

/-- The column of a name. -/
def column (name : String) : Except StoreError Column :=
  (Column.check name).mapError .unknownColumn

/-- The store with a record written. -/
def putSnapshot (s : Store) (r : Record) : Except StoreError Store :=
  s.answer { s with snapshots := s.snapshots.insert r.symbol r.stored }

/-- The store with a quote written. -/
def putQuote (s : Store) (q : QuoteRecord) : Except StoreError Store :=
  s.answer { s with quotes := s.quotes.insert q.symbol q.quote.stored }

/-- The store with one bar written. -/
def putBar (s : Store) (b : DailyBar) : Except StoreError Store :=
  match b.stored? with
  | some b => .ok { s with bars := s.bars.insert b.symbol (((s.bars.get? b.symbol).getD .empty).insert b.day b) }
  | none => .error .missingPrice

/-- How many records there are. -/
def count (s : Store) : Except StoreError Nat := s.answer s.snapshots.entries.length

/-- The record of a symbol. -/
def get? (s : Store) (symbol : String) : Except StoreError (Option Record) := s.answer (s.snapshots.get? symbol)

/-- The symbols of a market, or of all, in order. -/
def symbols (s : Store) (market : Option String) (limit : Int) : Except StoreError (List String) :=
  let inMarket (r : Record) : Bool := market.all fun m => r.text .market == some m
  s.answer (limited limit ((s.records.filter inMarket).map (·.symbol)))

/-- A page of the records that a statement selects, in an order, and how many it selects. The store has nothing but the two
texts and the values behind the marks. -/
def select (s : Store) (st : Statement) (order : String) (page : Page) : Except StoreError (List Record × Nat) :=
  match st.clauses?, OrderTerm.ofText? order with
  | some clauses, some terms =>
    let found := (s.records.filter (Clause.select clauses)).mergeSort fun a b => (OrderTerm.compareAll terms a b).isLE
    s.answer (page.cut found, found.length)
  | _, _ => .error .unreadable

/-- A page of the records that match, sorted, and how many match. -/
def screen (s : Store) (f : Filter) (sorts : List (ColumnSort String)) (limit offset : Int) :
    Except StoreError (List Record × Nat) := do
  if limit < 0 ∨ offset < 0 then throw (.negativePage limit offset)
  let st ← f.statement.mapError .unknownColumn
  let order ← (orderBy sorts).mapError .unknownColumn
  s.select st order ⟨limit.toNat, offset.toNat⟩

/-- The least and the greatest value of a column, the mean and the count of its values. A text counts as the number in its
front. -/
def statistics (s : Store) (name : String) : Except StoreError Statistics := do
  let c ← column name
  let values := s.records.filterMap (·.cell? c)
  let number : Value → Float
    | .number x => x
    | .text t => leadingNumber t
  let summand : Value → Summand
    | .number x => .real x
    | .text t => .ofText t
  let sorted := values.mergeSort fun v w => (v.order w).isLE
  let mean := ((values.map summand).foldl RunningSum.add (.exact 0)).total / Float.ofNat values.length
  s.answer ⟨sorted.head?.map number, sorted.getLast?.map number, if values.isEmpty then none else some mean, values.length⟩

/-- The different texts of a column that are not empty, in order. -/
def distinct (s : Store) (name : String) (limit : Int) : Except StoreError (List String) := do
  let c ← column name
  let cells ← s.answer (s.records.filterMap (·.cell? c))
  let texts := cells.filterMap fun | .text t => if t = "" then none else some t | .number _ => none
  if c.isNumeric ∧ !cells.isEmpty ∧ limit ≠ 0 then throw .notText
  return limited limit (Text.sortNames texts)

/-- The industries with how many symbols they have, the largest first. -/
def industries (s : Store) : Except StoreError (List IndustryCount) :=
  let named := (s.records.filterMap (·.text .industry)).filter (· ≠ "")
  let counts := (Text.sortNames named).map fun i => (⟨i, named.count i⟩ : IndustryCount)
  s.answer (counts.mergeSort fun a b => b.count ≤ a.count)

/-- The bars of a symbol whose day, as a text, lies between two days. -/
def barsBetween (s : Store) (symbol : String) (start finish : Date) : Except StoreError (List DailyBar) :=
  let bars := (s.bars.get? symbol).map (·.entries.map (·.2))
  s.answer ((bars.getD []).filter fun b => start.toText ≤ b.day ∧ b.day ≤ finish.toText)

/-- The series of a symbol between two days, if there is a bar on a day that can be read. -/
def series? (s : Store) (symbol : String) (start finish : Date) : Option Series :=
  match s.barsBetween symbol start finish with
  | .ok stored =>
    let bars := stored.filterMap DailyBar.bar?
    if bars.isEmpty then none else some (Series.ofBars bars)
  | .error _ => none

/-- The quotes of symbols; a symbol without one is left out. -/
def quotesOf (s : Store) (symbols : List String) : Except StoreError (Named Quote) :=
  if symbols.isEmpty then .ok .empty
  else s.answer ⟨s.quotes.entries.filter fun e => symbols.contains e.1, s.quotes.sorted.filter _⟩

/-- The store closed. -/
def close (s : Store) : Store := { s with isClosed := true }

end Store

end EquityScreen
