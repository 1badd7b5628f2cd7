import EquityScreen.Screening.Request
import EquityScreen.Screening.Settings

/-!
# The command line

The arguments name one command with its options. An option is given by its name after two dashes, and some by one letter
after one dash; its value follows as the next argument, or after `=`, and never begins with a dash unless it stands after
`=`. Letters may share one dash. An option is given once at most, except sort keys. Arguments are judged from left to right:
a request for help that comes first is granted, whatever follows it.
-/

namespace EquityScreen

/-- What the arguments come to. -/
inductive Parsed (α : Type) where
  | done (a : α)
  /-- Help was asked for. -/
  | help
  /-- The arguments are not as they should be. -/
  | misuse

/-- What an option does to what is collected. -/
inductive Effect (σ : Type) where
  | flag (set : σ → σ)
  /-- The option takes a value; `repeats` says that it may be given again. -/
  | value (repeats : Bool) (set : String → σ → Option σ)

/-- An option. -/
structure CommandOption (σ : Type) where
  name : String
  letter : Option Char := none
  effect : Effect σ

/-- What is collected from the arguments so far. -/
structure Collected (σ : Type) where
  value : σ
  /-- The options that may not be given again. -/
  used : List String := []

namespace Arguments

variable {σ : Type}

/-- What one argument comes to: more is collected, or the value of an option is next, or the end. -/
inductive Step (σ : Type) where
  | more (c : Collected σ)
  | awaits (c : Collected σ) (set : String → σ → Option σ)
  | help
  | misuse

/-- The argument gives options. -/
def isOption (arg : String) : Bool :=
  arg.startsWith "-" && arg != "-"

/-- The collection with the option noted as given, unless it was given and may not be again. -/
def Collected.note (c : Collected σ) (o : CommandOption σ) : Option (Collected σ) :=
  let repeats := match o.effect with
    | .value repeats _ => repeats
    | .flag _ => false
  if repeats then some c
  else if c.used.contains o.name then none
  else some { c with used := o.name :: c.used }

/-- The option with the value that is given with it, if one is. -/
def apply (c : Collected σ) (o : CommandOption σ) (given : Option String) : Step σ :=
  match Collected.note c o with
  | none => .misuse
  | some c =>
    match o.effect, given with
    | .flag set, none => .more { c with value := set c.value }
    | .flag _, some _ => .misuse
    | .value _ set, none => .awaits c set
    | .value _ set, some v =>
      match set v c.value with
      | some s => .more { c with value := s }
      | none => .misuse

/-- An option after two dashes, with what follows a `=`. -/
def longOption (options : List (CommandOption σ)) (c : Collected σ) (cs : List Char) : Step σ :=
  let name := String.ofList (cs.takeWhile (· ≠ '='))
  let given := match cs.dropWhile (· ≠ '=') with
    | [] => none
    | _ :: v => some (String.ofList v)
  match options.find? (·.name == name) with
  | some o => apply c o given
  | none => if name == "help" && given.isNone then .help else .misuse

/-- Options after one dash. What follows the letter of an option with a value is the value. -/
def letters (options : List (CommandOption σ)) (c : Collected σ) : List Char → Step σ
  | [] => .more c
  | l :: rest =>
    match options.find? (·.letter == some l) with
    | none => if l = 'h' then .help else .misuse
    | some o =>
      match o.effect with
      | .flag _ =>
        match apply c o none with
        | .more c => letters options c rest
        | step => step
      | .value .. =>
        match rest with
        | [] => apply c o none
        | '=' :: v => apply c o (some (String.ofList v))
        | v => apply c o (some (String.ofList v))

/-- One argument that gives options. -/
def option (options : List (CommandOption σ)) (c : Collected σ) (arg : String) : Step σ :=
  match arg.toList with
  | '-' :: '-' :: name => longOption options c name
  | '-' :: cluster => letters options c cluster
  | _ => .misuse

mutual

/-- Collects options up to the first argument that is none, and returns it with those after it. -/
def collect (options : List (CommandOption σ)) (c : Collected σ) : List String → Parsed (Collected σ × List String)
  | [] => .done (c, [])
  | "--" :: rest => if rest.isEmpty then .done (c, []) else .misuse
  | arg :: rest =>
    if isOption arg then
      match option options c arg with
      | .more c => collect options c rest
      | .awaits c set => collectValue options c set rest
      | .help => .help
      | .misuse => .misuse
    else .done (c, arg :: rest)

/-- The value of an option, and what follows. -/
def collectValue (options : List (CommandOption σ)) (c : Collected σ) (set : String → σ → Option σ) :
    List String → Parsed (Collected σ × List String)
  | [] => .misuse
  | arg :: rest =>
    if isOption arg then .misuse
    else
      match set arg c.value with
      | some s => collect options { c with value := s } rest
      | none => .misuse

end

/-- What options alone come to. -/
def only (options : List (CommandOption σ)) (start : σ) (args : List String) : Parsed σ :=
  match collect options ⟨start, []⟩ args with
  | .done (c, []) => .done c.value
  | .done (_, _ :: _) => .misuse
  | .help => .help
  | .misuse => .misuse

end Arguments

/-- What `run` is asked. -/
structure RunOptions where
  conditions : String
  request : Request
  /-- The answer is printed as a document and not as a table. -/
  asJson : Bool

/-- A command. -/
inductive Command where
  | serve (host : String) (port : Nat)
  | run (options : RunOptions)
  | fields
  | validate (conditions : String)
  | importFiles (snapshots bars quotes : Option String)

namespace Command

/-- The values of all options of all commands. -/
structure Options where
  verbose : Bool := false
  host : String := "0.0.0.0"
  port : Nat := 3001
  conditions : Option String := none
  request : Request := {}
  asJson : Bool := false
  snapshots : Option String := none
  bars : Option String := none
  quotes : Option String := none

/-- The port of a text: a whole number, with or without a sign, from 0 to 65535. -/
def readPort (s : String) : Option Nat :=
  match s.toList with
  | '-' :: digits => if (readCount (String.ofList digits)) == some 0 && digits.head? != some '+' then some 0 else none
  | _ => (readCount s).filter (· < 65536)

/-- A sort key: a field, and a direction after a colon. -/
def readSortKey (s : String) : Option SortKey :=
  let cs := s.toList
  let field := String.ofList (cs.takeWhile (· ≠ ':'))
  if field.isEmpty then none
  else
    match cs.dropWhile (· ≠ ':') with
    | [] => some ⟨field, .desc⟩
    | _ :: direction =>
      match Direction.ofText (String.ofList direction) with
      | .ok d => some ⟨field, d⟩
      | .error _ => none

/-- Sort keys with commas between them. -/
def readSortKeys (s : String) : Option (List SortKey) :=
  (s.splitOn ",").mapM readSortKey

/-- The option of every command. -/
def verbose : CommandOption Options :=
  { name := "verbose", letter := some 'v', effect := .flag fun o => { o with verbose := true } }

/-- An option with a value that is given once. -/
def valued (name : String) (set : String → Options → Option Options) (letter : Option Char) : CommandOption Options :=
  { name, letter, effect := .value false set }

/-- The option for conditions. -/
def conditionsOption : CommandOption Options :=
  valued "conditions" (fun v o => some { o with conditions := some v }) none

/-- The options of `serve`. -/
def serveOptions : List (CommandOption Options) :=
  [verbose, valued "host" (fun v o => some { o with host := v }) none,
    valued "port" (fun v o => (readPort v).map fun n => { o with port := n }) (some 'p')]

/-- The options of `run`. -/
def runOptions : List (CommandOption Options) :=
  let ask (change : Request → Request) (o : Options) : Options := { o with request := change o.request }
  [verbose, conditionsOption,
    { name := "order-by"
      effect := .value true fun v o =>
        (readSortKeys v).map fun keys => ask (fun r => { r with orderBy := r.orderBy ++ keys }) o },
    valued "limit" (fun v o => (readCount v).map fun n => ask (fun r => { r with limit := some n }) o) none,
    valued "offset" (fun v o => (readCount v).map fun n => ask (fun r => { r with offset := n }) o) none,
    valued "market" (fun v o => some (ask (fun r => { r with market := v }) o)) none,
    valued "date" (fun v o => (Date.read? v).map fun d => ask (fun r => { r with asOf := some d }) o) none,
    { name := "no-pushdown", effect := .flag (ask fun r => { r with preferPushdown := false }) },
    { name := "json", effect := .flag fun o => { o with asJson := true } }]

/-- The options of `import`. -/
def importOptions : List (CommandOption Options) :=
  [verbose, valued "snapshots" (fun v o => some { o with snapshots := some v }) none,
    valued "bars" (fun v o => some { o with bars := some v }) none,
    valued "quotes" (fun v o => some { o with quotes := some v }) none]

/-- The names of the commands, `help` among them. -/
def names : List String := ["serve", "run", "fields", "validate", "import", "help"]

/-- The command of a name with its arguments. -/
def ofArguments (name : String) (args : List String) : Parsed Command :=
  let options (options : List (CommandOption Options)) (command : Options → Parsed Command) : Parsed Command :=
    match Arguments.only options {} args with
    | .done o => command o
    | .help => .help
    | .misuse => .misuse
  match name with
  | "serve" => options serveOptions fun o => .done (.serve o.host o.port)
  | "run" => options runOptions fun o =>
    match o.conditions with
    | some c => .done (.run ⟨c, o.request, o.asJson⟩)
    | none => .misuse
  | "fields" => options [verbose] fun _ => .done .fields
  | "validate" => options [verbose, conditionsOption] fun o =>
    match o.conditions with
    | some c => .done (.validate c)
    | none => .misuse
  | "import" => options importOptions fun o => .done (.importFiles o.snapshots o.bars o.quotes)
  | "help" => if args.all names.contains && args.length ≤ 1 then .help else .misuse
  | _ => .misuse

/-- The command that the arguments of the program name. -/
def parse (args : List String) : Parsed Command :=
  match Arguments.collect [verbose] ⟨{}, []⟩ args with
  | .done (_, name :: rest) => ofArguments name rest
  | .done (_, []) => .misuse
  | .help => .help
  | .misuse => .misuse

end Command

end EquityScreen
