import EquityScreen.Server.Message
import EquityScreen.Store.Archive
import Std.Async.TCP
import Std.Time.DateTime.Timestamp

/-!
# The program

The program reads what its command needs, lets the command come to its end, prints what came of it and keeps the store. A
server then answers one connection after another.
-/

namespace EquityScreen.Program

/-- How the program is used. -/
def usage : String :=
  "Usage: screener [-v] <COMMAND>\n\nCommands:\n" ++
  "  serve     [--host HOST] [-p PORT]\n" ++
  "  run       --conditions JSON|@FILE [--order-by FIELD[:asc|desc],...] [--limit N] [--offset N]\n" ++
  "            [--market MARKET] [--date DATE] [--no-pushdown] [--json]\n" ++
  "  fields\n" ++
  "  validate  --conditions JSON|@FILE\n" ++
  "  import    [--snapshots FILE] [--bars FILE] [--quotes FILE]\n" ++
  "  help"

/-- Why a file cannot be read. -/
def reason : IO.Error → String
  | .noFileOrDirectory .. => "No such file or directory (os error 2)"
  | .permissionDenied .. => "Permission denied (os error 13)"
  | .inappropriateType .. => "Is a directory (os error 21)"
  | e => toString e

/-- The text of a file. -/
def textOfFile (path : String) : IO (Except String String) := do
  try
    return .ok (← IO.FS.readFile path)
  catch e => return .error (reason e)

/-- The folder of a path. -/
def folderOf (path : String) : String :=
  let folder := Text.join "/" (path.splitOn "/").dropLast
  if folder.isEmpty then (if path.startsWith "/" then "/" else ".") else folder

/-- There is something at the path. -/
def isThere (path : String) : IO Bool := do
  try
    discard (IO.FS.realPath path)
    return true
  catch _ => return false

/-- What is found at a path, once the folder of the configured path is made. A file of no more than one byte holds nothing
yet. -/
def storeOfFile (configured file : String) : IO (Except OpenError StoreFile) := do
  try IO.FS.createDirAll (folderOf configured) catch _ => pure ()
  unless ← isThere (folderOf file) do return .error .unreachable
  try
    let text ← IO.FS.readFile file
    if text.utf8ByteSize ≤ 1 then return .ok .blank
    match Json.Draft.readText (·.readWhole 0 Archive.store) text with
    | .ok s => return .ok (.holds s)
    | .error _ => return .error .notStore
  catch
    | .noFileOrDirectory .. => return .ok .absent
    | _ => return .error .unreachable

/-- Keeps a store in a file. -/
def keepStore (path : String) (s : Store) : IO Unit :=
  IO.FS.writeFile path (Archive.ofStore s).compact

/-- The day it is. -/
def today : IO Date := do
  let now ← Std.Time.Timestamp.now
  let epoch : Date := ⟨1970, 1, 1⟩
  return .ofNumber (epoch.number + now.toSecondsSinceUnixEpoch.val / 86400)

/-- The values of variables that are set. -/
def valuesOf (names : List String) : IO (List (String × Option String)) :=
  names.mapM fun name => return (name, ← IO.getEnv name)

/-- What a command that reads these files runs against, before a store is opened. -/
def surroundings (files : List String) : IO Surroundings := do
  let texts ← (".env" :: files).mapM fun path => return (path, ← textOfFile path)
  let textAt (path : String) : Except String String := (texts.lookup path).getD (.error "not read")
  let mentioned := match textAt ".env" with
    | .ok text => Variables.mentioned text.toList
    | .error _ => []
  let values ← valuesOf (Settings.variableNames ++ mentioned)
  let w : Surroundings :=
    { lookup := fun name => (values.lookup name).join, textAt, openStore := fun _ _ => .ok .absent, today := ← today }
  let more ← valuesOf (w.fileValues.entries.map (·.1))
  return { w with lookup := fun name => ((values ++ more).lookup name).join }

/-- The surroundings with what is found at the place of the store. -/
def withStore (w : Surroundings) : IO Surroundings := do
  match w.place with
  | .ok ⟨some file, _⟩ =>
    let found ← storeOfFile w.settings.databasePath file
    return { w with openStore := fun _ _ => found }
  | _ => return w

/-- Receives a request and sends its answer. -/
partial def answerConnection (s : Screener) (c : Std.Async.TCP.Socket.Client) (sofar : List UInt8) : IO Unit := do
  let more ← (c.recv? 65536).block
  let bytes := sofar ++ (more.map ByteArray.toList).getD []
  match Server.arrival bytes, more with
  | .incomplete, some _ => answerConnection s c bytes
  | .incomplete, none => return
  | .malformed, _ => send 0 { status := 400 }
  | .complete r, _ => do
    let day ← today
    let start ← IO.monoMsNow
    let answer ← IO.lazyPure fun _ => Server.handle s day r
    send ((← IO.monoMsNow) - start) answer
where
  /-- Sends an answer and ends the connection. -/
  send (elapsed : Nat) (a : HttpAnswer) : IO Unit := do
    (c.send (Server.answerBytes elapsed a)).block
    c.shutdown.block

/-- The address of a text that is one. -/
def addressOf? (host : String) (port : UInt16) : Option Std.Net.SocketAddress :=
  let bare := String.ofList (host.toList.filter fun c => c ≠ '[' ∧ c ≠ ']')
  match Std.Net.IPv4Addr.ofString bare, Std.Net.IPv6Addr.ofString bare with
  | some a, _ => some (.v4 ⟨a, port⟩)
  | none, some a => some (.v6 ⟨a, port⟩)
  | none, none => none

/-- Answers one connection after another. -/
partial def answerAll (s : Screener) (server : Std.Async.TCP.Socket.Server) : IO Unit := do
  let c ← server.accept.block
  try answerConnection s c [] catch e => IO.eprintln e
  answerAll s server

/-- Serves at an address. -/
def serve (s : Screener) (host : String) (port : Nat) : IO UInt32 := do
  match addressOf? host port.toUInt16 with
  | none =>
    IO.eprintln s!"Error: {host} is no address"
    return 1
  | some address =>
    let server ← Std.Async.TCP.Socket.Server.mk
    server.bind address
    server.listen 128
    answerAll s server
    return 0

/-- Runs a command to its end. -/
def finish (w : Surroundings) (command : Command) : IO UInt32 := do
  let start ← IO.monoMsNow
  let c ← IO.lazyPure fun _ => command.execute w
  let elapsed := (← IO.monoMsNow) - start
  (c.output.toLines elapsed).forM IO.println
  if let some (path, s) := c.store then keepStore path s
  if let some e := c.error then IO.eprintln s!"Error: {e}"
  match c.serving, command with
  | some s, .serve host port => serve s host port
  | _, _ => return c.code.toUInt32

end EquityScreen.Program

/-- Runs the command that the arguments name, once the variables of `.env` are set. -/
def main (args : List String) : IO UInt32 := do
  let parsed := EquityScreen.Command.parse args
  let w ← EquityScreen.Program.surroundings (match parsed with | .done command => command.files | _ => [])
  if w.isBroken then
    IO.eprintln "a variable of .env holds a null character"
    return EquityScreen.brokenCode.toUInt32
  match parsed with
  | .help =>
    IO.println EquityScreen.Program.usage
    return 0
  | .misuse =>
    IO.eprintln EquityScreen.Program.usage
    return 2
  | .done command => EquityScreen.Program.finish (← EquityScreen.Program.withStore w) command
