import EquityScreen.Command.Arguments
import EquityScreen.Command.Table
import EquityScreen.Command.Variables
import EquityScreen.Json.Writer
import EquityScreen.Server.Address
import EquityScreen.Store.Location
import EquityScreen.Store.Transaction

/-!
# What the commands do

A command runs against its surroundings: variables, files, stores and the day. It prints lines, may end in an error, and may
leave a store changed. Conditions are read before a store is opened. An import changes the store by each file that it can
read and load, in the order snapshots, bars, quotes, up to the first that it cannot.
-/

namespace EquityScreen

/-- Why a store cannot be opened. -/
inductive OpenError where
  /-- The path is no place for a store. -/
  | misplaced (e : LocationError)
  /-- The path leads to no file that could be opened. -/
  | unreachable
  /-- The file holds something else. -/
  | notStore
  /-- A new store is needed in a place that is only read. -/
  | unchangeable
  deriving DecidableEq, Repr

/-- That a store cannot be changed. -/
def readOnlyFault : String := "(code: 8) attempt to write a readonly database"

/-- The text of an error about the path. -/
def OpenError.message (path : String) : OpenError → String
  | .misplaced e => s!"Database connection error: sqlite:{path}?mode=rwc: {e.message}"
  | .unreachable =>
    s!"Database connection error: sqlite:{path}?mode=rwc: " ++
      "error returned from database: (code: 14) unable to open database file"
  | .notStore =>
    "Migration error: error returned from database: (code: 26) file is not a database: " ++ snapshotTable
  | .unchangeable => s!"Migration error: error returned from database: {readOnlyFault}: " ++ snapshotTable

/-- What is found at the path of a store's file. -/
inductive StoreFile where
  | absent
  /-- A file that holds nothing yet. -/
  | blank
  | holds (s : Store)

/-- What a command runs against. -/
structure Surroundings where
  /-- The value of a variable. -/
  lookup : String → Option String
  /-- The text of a file, or why it cannot be read. -/
  textAt : String → Except String String
  /-- What is found at a path, or why it cannot be opened. The folder of the path that the settings give, which stands first,
  has been made before. -/
  openStore : String → String → Except OpenError StoreFile
  today : Date

/-- The document of a response; `elapsed` is how many milliseconds the screen took. -/
def Response.toJson (r : Response) (elapsed : Nat) : Json :=
  .object [("total", .nat r.total), ("items", .list (r.items.map Row.toJson)), ("routing_used", .text r.routing.name),
    ("took_ms", .nat elapsed), ("partial", .bool r.isPartial), ("evaluated", .nat r.evaluated), ("skipped", .nat r.skipped),
    ("limit", .nat r.page.limit), ("offset", .nat r.page.offset)]

/-- What a command prints. -/
inductive Output where
  | lines (ls : List String)
  | document (v : Json)
  /-- The response of a screen, as a document or as a table. -/
  | response (r : Response) (asJson : Bool)

/-- The lines of a document. -/
def documentLines (v : Json) : List String := v.indented.splitOn "\n"

/-- The printed lines; `elapsed` is how many milliseconds the command took. -/
def Output.toLines (elapsed : Nat) : Output → List String
  | lines ls => ls
  | document v => documentLines v
  | response r asJson => if asJson then documentLines (r.toJson elapsed) else r.table elapsed

/-- What came of a command. -/
structure Completion where
  output : Output := .lines []
  error : Option String := none
  /-- The store that is left, with the path of its file. -/
  store : Option (String × Store) := none
  /-- The screener that goes on to answer requests. -/
  serving : Option Screener := none

/-- The code that a program ends with. -/
def Completion.code (c : Completion) : Nat := if c.error.isSome then 1 else 0

/-- The code that the program ends with where the variables of `.env` cannot be set. -/
def brokenCode : Nat := 101

/-- The version of the program. -/
def version : String := "1.0.0"

namespace Surroundings

/-- The variables of the file `.env`. -/
def fileValues (w : Surroundings) : Named String :=
  match w.textAt ".env" with
  | .ok text => Variables.ofText w.lookup text
  | .error _ => .empty

/-- A variable of the file `.env` that is not set holds a null character, which no variable can hold. Nothing runs then. -/
def isBroken (w : Surroundings) : Bool :=
  w.fileValues.entries.any fun (name, value) => (w.lookup name).isNone && value.contains '\x00'

/-- The settings that the variables give, with those of the file `.env` for the ones that are not set. -/
def settings (w : Surroundings) : Settings :=
  let ofFile := w.fileValues
  .ofVariables fun name => (w.lookup name).orElse fun _ => ofFile.get? name

/-- The place of the store. -/
def place (w : Surroundings) : Except LocationError StorePlace := StoreLocation.placeOf w.settings.databasePath

/-- The store at a place. -/
def storeAt (w : Surroundings) (p : StorePlace) : Except OpenError Store := do
  let found ← match p.file with
    | none => .ok .blank
    | some file => w.openStore w.settings.databasePath file
  match found with
  | .holds s => return s
  | .blank => if p.access = .readOnly then throw .unchangeable else return {}
  | .absent => if p.access = .create then return {} else throw .unreachable

/-- The store of the settings, or the error to end with. -/
def opened (w : Surroundings) : Except String Store :=
  (w.place.mapError .misplaced >>= w.storeAt).mapError fun e =>
    "Database initialization failed: " ++ e.message w.settings.databasePath

/-- A store with the path of the file that keeps it, if one does. -/
def kept (w : Surroundings) (s : Store) : Option (String × Store) :=
  match w.place with
  | .ok ⟨some file, _⟩ => some (file, s)
  | _ => none

/-- The store may be changed. -/
def isChangeable (w : Surroundings) : Bool :=
  match w.place with
  | .ok p => p.access ≠ .readOnly
  | .error _ => true

/-- The screener over a store. -/
def screener (w : Surroundings) (s : Store) : Screener :=
  { settings := w.settings, sources := s.sources }

/-- The text of a file, or the error to end with. -/
def fileText (w : Surroundings) (path : String) : Except String String :=
  (w.textAt path).mapError fun reason => s!"Failed to read {path}: {reason}"

/-- The conditions of an argument: the text itself, or the text of a file whose path follows `@`. -/
def conditions (w : Surroundings) (arg : String) : Except String Condition := do
  let text ← match arg.toList with
    | '@' :: path => w.fileText (String.ofList path)
    | _ => .ok arg
  match Condition.ofText text with
  | .ok c => return c
  | .error _ => throw "Invalid conditions: neither a condition nor a list of conditions"

/-- The records of a file, whose fields have the names, or the error to end with. -/
def recordsOf {α : Type} (w : Surroundings) (names : List (List String)) (read : Json → Read α) (path : String) :
    Except String (List α) := do
  let record (d : Json.Draft) : Read α := (d.prune names).readWhole 1 read
  match Json.Draft.readText (·.readItems record) (← w.fileText path) with
  | .ok records => return records
  | .error _ => throw s!"Failed to parse {path}: not a list of records"

/-- The store after the records of a file, if there is one; an error leaves the store as it was. -/
def load {α : Type} (w : Surroundings) (names : List (List String)) (read : Json → Read α)
    (put : Store → List α → Except StoreError Store) (path : Option String) (s : Store) : Except String Store :=
  match path with
  | none => .ok s
  | some path => do
    let records ← w.recordsOf names read path
    if records.isEmpty || w.isChangeable then (put s records).mapError StoreError.message
    else throw s!"error returned from database: {readOnlyFault}\n\nCaused by:\n    {readOnlyFault}"

end Surroundings

/-- Ends with an error, the lines before it printed. -/
def Completion.failed (error : String) (lines : List String) : Completion :=
  { output := .lines lines, error := some error }

namespace Command

/-- The files that an argument for conditions names. -/
def conditionFiles (arg : String) : List String :=
  match arg.toList with
  | '@' :: path => [String.ofList path]
  | _ => []

/-- The files that a command reads, apart from the store. -/
def files : Command → List String
  | .run options => conditionFiles options.conditions
  | .validate conditions => conditionFiles conditions
  | .importFiles snapshots bars quotes => [snapshots, bars, quotes].filterMap id
  | .serve .. | .fields => []

/-- The lines that say what is wrong with a request. -/
def issueLines (issues : List Issue) : List String :=
  issues.map fun i => "  " ++ leftCell 28 i.place.toText ++ " " ++ i.message

/-- The error of a request with issues. -/
def issueError (n : Nat) : String := s!"{n} invalid condition(s)"

/-- Runs a screen. -/
def executeRun (w : Surroundings) (o : RunOptions) : Completion :=
  match w.conditions o.conditions with
  | .error e => .failed e []
  | .ok conditions =>
    match w.opened with
    | .error e => .failed e []
    | .ok s =>
      let completion := match ((w.screener s).run w.today { o.request with conditions }).run.value with
        | .ok r => { output := .response r o.asJson : Completion }
        | .error (.invalid issues) => .failed (issueError issues.length) (issueLines issues)
        | .error e => .failed e.message []
      { completion with store := w.kept s }

/-- Prints what is wrong with conditions. -/
def executeValidate (w : Surroundings) (arg : String) : Completion :=
  match w.conditions arg with
  | .error e => .failed e []
  | .ok c =>
    match w.opened with
    | .error e => .failed e []
    | .ok s =>
      let report := (w.screener s).validate c
      { output := .document report.toJson
        error := if report.valid then none else some (issueError report.issues.length)
        store := w.kept s }

/-- Prints the fields. -/
def executeFields (w : Surroundings) : Completion :=
  match w.opened with
  | .error e => .failed e []
  | .ok s =>
    { output := .lines (fieldTable (w.screener s).fields.value), store := w.kept s }

/-- One after another, as far as there is no error. -/
def loadAll (steps : List (Store → Except String Store)) (s : Store) : Store × Option String :=
  match steps with
  | [] => (s, none)
  | step :: rest =>
    match step s with
    | .ok s => loadAll rest s
    | .error e => (s, some e)

/-- Loads files into the store. -/
def executeImport (w : Surroundings) (snapshots bars quotes : Option String) : Completion :=
  if snapshots.isNone && bars.isNone && quotes.isNone then {}
  else
    match w.opened with
    | .error e => .failed e []
    | .ok s =>
      let (s, error) := loadAll
        [w.load Record.names Record.ofJson (fun s rs => rs.foldlM Store.putSnapshot s) snapshots,
          w.load DailyBar.names DailyBar.ofJson Store.importBars bars,
          w.load QuoteRecord.names QuoteRecord.ofJson (fun s qs => qs.foldlM Store.putQuote s) quotes] s
      { error, store := w.kept s }

/-- The lines that a server begins with. -/
def serverLines (address databasePath : String) : List String :=
  ["", s!"=== Stock Screener v{version} ===", s!"Listening on http://{address}", "", "Endpoints:",
    "  GET  /api/health                    - Health check",
    "  POST /api/screening/run             - Run a screen",
    "  GET  /api/screening/fields          - Field catalog with statistics",
    "  GET  /api/screening/fields/:name    - One field",
    "  POST /api/screening/validate        - Validate conditions",
    "  GET  /api/screening/industries      - Industries with symbol counts",
    "", s!"  Database: {databasePath}", "", "Press Ctrl+C to stop", ""]

/-- Starts a server. -/
def executeServe (w : Surroundings) (host : String) (port : Nat) : Completion :=
  match w.opened with
  | .error e => .failed e []
  | .ok s =>
    let path := w.settings.databasePath
    let address := s!"{host}:{port}"
    if isSocketAddress address then
      { output := .lines (serverLines address path), store := w.kept s, serving := some (w.screener s) }
    else { error := some "invalid socket address syntax", store := w.kept s }

/-- What comes of a command. -/
def execute (w : Surroundings) : Command → Completion
  | .serve host port => executeServe w host port
  | .run options => executeRun w options
  | .fields => executeFields w
  | .validate conditions => executeValidate w conditions
  | .importFiles snapshots bars quotes => executeImport w snapshots bars quotes

end Command

end EquityScreen
