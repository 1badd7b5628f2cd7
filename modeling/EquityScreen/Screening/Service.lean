import EquityScreen.Field.Validation
import EquityScreen.Indicator.Compute
import EquityScreen.Screening.Plan
import EquityScreen.Screening.Request
import EquityScreen.Screening.Settings
import EquityScreen.Screening.Sources
import EquityScreen.Store.Pushdown

/-!
# Screening

A request is brought to the names of the registry and checked before anything is asked of a source. The store then answers
it with one page, or every candidate, of a limited number, is evaluated by itself: its snapshot, and, where a technical
field is named, its bars with the indicators computed over them. A symbol whose data is missing is skipped and harms no
other. The rows of the page are brought up to date with quotes at the end.

With a deadline, symbols are waited for in the order of the candidates until the first that is late, by its snapshot or by its
bars; the screen then answers with what it has, and says that it is partial. So many symbols are asked about side by side, so a
late symbol leaves calls behind for those after it.
-/

namespace EquityScreen

open Json

/-- Why a screen has no answer. -/
inductive ScreenError where
  | invalid (issues : List Issue)
  | pushdown (e : PushdownError)
  | store (e : StoreError)
  deriving DecidableEq, Repr

namespace ScreenError

/-- The text of an error. -/
def message : ScreenError → String
  | invalid issues => Issue.summary issues
  | pushdown e => e.message
  | store e => s!"store error: {e.message}"

/-- The request is at fault, and no source. -/
def isClientError : ScreenError → Bool
  | store _ => false
  | _ => true

end ScreenError

/-- What a screen answers. -/
structure Response where
  total : Nat
  items : List Row
  routing : Routing
  /-- The deadline came before every symbol was evaluated. -/
  isPartial : Bool
  evaluated : Nat
  skipped : Nat
  page : Page

/-- A field with the texts it may be compared with. -/
structure FieldInfo where
  descriptor : Descriptor
  values : List String

/-- The document of a field; without texts they are left out. -/
def FieldInfo.toJson (i : FieldInfo) : Json :=
  match i.descriptor.toJson with
  | .object members =>
    .object (members ++ if i.values.isEmpty then [] else [("available_values", .texts i.values)])
  | v => v

/-- What came of one symbol. -/
inductive Outcome where
  | matched (row : Row)
  | rejected
  | skipped

/-- What came of one symbol, and whether it came too late. -/
structure SymbolAnswer where
  outcome : Outcome
  late : Bool

/-- A computed screen: its condition, what it needs, and the days its bars lie between. -/
structure ComputedScreen where
  conditions : Condition
  analysis : Analysis
  start : Date
  finish : Date
  /-- There is a time by which its symbols have to be done. -/
  timed : Bool

namespace Row

/-- The row of a symbol with the fields of its snapshot. -/
def ofSnapshot (symbol : String) (snapshot : Option Snapshot) : Row :=
  ((snapshot.getD .empty).entries.filter (·.1 != "symbol")).foldl (fun r e => r.set e.1 e.2) (.ofSymbol symbol)

/-- The row with the last number of every column. -/
def withLast (r : Row) (s : Series) : Row :=
  s.columns.names.foldl (fun r name => match s.last? name with | some x => r.set name (.number x) | none => r) r

/-- The row with the last day. -/
def withDay (r : Row) (s : Series) : Row :=
  match s.dates.getLast? with
  | some d => r.set "trade_date" (.text d.toText)
  | none => r

end Row

/-- The series with the change of its closing prices, if it has closing prices. -/
def Series.withChange (s : Series) : Series :=
  match s.column? "close" with
  | some close => s.insert "pct_chg" (percentChange close)
  | none => s

namespace ComputedScreen

/-- What comes of a symbol that needs no bars. -/
def ofSnapshot (screen : ComputedScreen) (symbol : String) : Option Snapshot → Outcome
  | none => .skipped
  | some snapshot =>
    if (Context.snapshot snapshot).satisfies screen.conditions then .matched (Row.ofSnapshot symbol (some snapshot))
    else .rejected

/-- What comes of a symbol with its bars. -/
def ofSeries (screen : ComputedScreen) (symbol : String) (snapshot : Option Snapshot) : Option Series → Outcome
  | none => .skipped
  | some series =>
    match series.withChange.compute screen.analysis.specs with
    | .error _ => .skipped
    | .ok enriched =>
      if (Context.series enriched snapshot).satisfies screen.conditions then
        .matched (((Row.ofSnapshot symbol snapshot).withLast enriched).withDay enriched)
      else .rejected

/-- What comes of a symbol. A snapshot that cannot be had is none. The symbol is late when any answer it waits for is, and once
its time is over nothing more is asked about it. -/
def evaluate (screen : ComputedScreen) (sources : Sources) (symbol : String) : Traced SymbolAnswer := do
  let answer ← Traced.ask (.snapshot symbol) (sources.snapshot symbol)
  let snapshot := match answer.found with
    | .ok found => found
    | .error _ => none
  if screen.analysis.needsSeries then
    let bars ← Traced.askInTime (!(screen.timed && answer.late)) (.bars symbol screen.start screen.finish)
      (sources.bars symbol screen.start screen.finish)
    return ⟨screen.ofSeries symbol snapshot bars.series, answer.late || bars.late⟩
  else return ⟨screen.ofSnapshot symbol snapshot, answer.late⟩

end ComputedScreen

namespace Outcome

/-- The row of a symbol that matched. -/
def row? : Outcome → Option Row
  | matched r => some r
  | _ => none

/-- The symbol was skipped. -/
def isSkipped : Outcome → Bool
  | skipped => true
  | _ => false

end Outcome

/-- What a computed screen found. -/
structure Matches where
  rows : List Row
  evaluated : Nat
  skipped : Nat
  isPartial : Bool

/-- The sum of outcomes. -/
def Matches.ofOutcomes (outcomes : List Outcome) (isPartial : Bool) : Matches :=
  ⟨outcomes.filterMap Outcome.row?, outcomes.countP (!·.isSkipped), outcomes.countP (·.isSkipped), isPartial⟩

/-- A screener: the fields it knows, how it runs and where it gets its data. -/
structure Screener where
  registry : Registry := .builtin
  settings : Settings := {}
  sources : Sources

/-- An answer of a screener, or why there is none, with the calls made. -/
abbrev Screening := ExceptT ScreenError Traced

namespace Screener

/-- The answer of a source. -/
def ask {α : Type} (call : Call) (answer : Except StoreError α) : Screening α :=
  ExceptT.mk (Traced.ask call (answer.mapError .store))

/-- The outcomes of the candidates. With a deadline they end before the first late symbol, and calls are made for
as many symbols from there on as are evaluated side by side. -/
def outcomes (s : Screener) (screen : ComputedScreen) (candidates : List String) : Traced Matches :=
  let answers := candidates.map fun symbol => screen.evaluate s.sources symbol
  let inTime := if s.settings.deadline.isSome then answers.takeWhile (!·.value.late) else answers
  let isPartial := inTime.length < answers.length
  let begun := if isPartial then answers.take (inTime.length + max 1 s.settings.concurrency) else answers
  ⟨.ofOutcomes (inTime.map (·.value.outcome)) isPartial, begun.flatMap (·.calls)⟩

/-- What a computed screen finds, on the day of the request or else today. -/
def compute (s : Screener) (today : Date) (request : Request) (conditions : Condition) (keys : List SortKey) :
    Screening Matches := do
  let market := request.marketOnly?
  let cap := s.settings.universeCap
  let candidates ← ask (.candidates market cap) (s.sources.candidates market cap)
  let finish := request.asOf.getD today
  let start := finish.minusDays s.settings.lookbackDays
  let screen := ⟨conditions, s.registry.analyze conditions keys, start, finish, s.settings.deadline.isSome⟩
  let found ← s.outcomes screen candidates
  return found

/-- The rows brought up to date with the quotes of their symbols; no rows need no quotes. -/
def refresh (s : Screener) (rows : List Row) : Screening (List Row) := do
  if rows.isEmpty then return rows
  else
    let symbols := rows.map (·.symbol)
    let found ← (Traced.ask (.quotes symbols) (s.sources.quotes symbols) : Traced (Except StoreError (Named Quote)))
    return enrich found rows

/-- The answer to a request. -/
def run (s : Screener) (today : Date) (request : Request) : Screening Response := do
  let conditions := request.conditions.normalize
  let keys := request.orderBy.map SortKey.normalize
  let issues := s.registry.check conditions keys
  if !issues.isEmpty then throw (.invalid issues)
  let page := Page.ofRequest request.limit request.offset
  let routing := s.registry.planWithHint conditions keys request.preferPushdown
  match routing with
  | .pushdown =>
    let f ← (s.registry.pushdown conditions).mapError ScreenError.pushdown
    let sorts := columnSorts keys
    let (rows, total) ← ask (.query f sorts page) (s.sources.query f sorts page)
    return ⟨total, ← s.refresh rows, routing, false, total, 0, page⟩
  | .computed =>
    let found ← s.compute today request conditions keys
    let (rows, total) := assemble found.rows keys page
    return ⟨total, ← s.refresh rows, routing, found.isPartial, found.evaluated, found.skipped, page⟩

/-- The screen asks for bars over which it would have to lay out a ring that no memory holds. -/
def exceedsMemory (s : Screener) (today : Date) (request : Request) : Bool :=
  let specs := (s.registry.analyze request.conditions.normalize (request.orderBy.map SortKey.normalize)).specs
  (s.run today request).run.calls.any fun
    | .bars symbol start finish => (s.sources.bars symbol start finish).series.any (!·.withChange.hasRoomFor specs)
    | _ => false

/-- What a client is told about a condition. -/
def validate (s : Screener) (c : Condition) : Registry.Report := s.registry.report c.normalize

/-- A field with its statistics, if it is a stored number, or with its first hundred texts, if it is any other stored field.
Where they cannot be had the field stands without. -/
def describe (s : Screener) (d : Descriptor) : Traced FieldInfo := do
  if d.category == .technical then return ⟨d, []⟩
  else if d.isNumeric then
    match ← Traced.ask (.statistics d.name) (s.sources.statistics d.name) with
    | .ok statistics => return ⟨{ d with statistics := some statistics }, []⟩
    | .error _ => return ⟨d, []⟩
  else
    match ← Traced.ask (.values d.name 100) (s.sources.values d.name 100) with
    | .ok values => return ⟨d, values⟩
    | .error _ => return ⟨d, []⟩

/-- Every field. -/
def fields (s : Screener) : Traced (List FieldInfo) := s.registry.fields.mapM s.describe

/-- The field of a name or of an old name. -/
def field? (s : Screener) (name : String) : Traced (Option FieldInfo) :=
  match s.registry.resolve? name with
  | some d => some <$> s.describe d
  | none => pure none

/-- The industries. -/
def industries (s : Screener) : Screening (List IndustryCount) := ask .industries s.sources.industries

end Screener

end EquityScreen
