import EquityScreen.Store.FileAddress
import EquityScreen.Text.Quoted

/-!
# The location of a store

The location of a store is the address of a database without its scheme: the scheme may stand before it all the same, once or
more, escapes stand for bytes, and parameters may follow a question mark. The store itself adds the parameter that lets it
make a file that is not there; behind parameters of the location it becomes part of the last of them, so that one cannot be
read unless it names a file system. The name `:memory:` stands for a store that is not kept at all.
-/

namespace EquityScreen

/-- Why a location leads nowhere. -/
inductive LocationError where
  | unknownParameter (name : String)
  | unknownValue (parameter value : String)
  | notText (b : Text.Utf8Break)
  /-- The name of the file has a null character. -/
  | nul
  | address (e : AddressError)
  deriving DecidableEq, Repr

/-- The text of an error. -/
def LocationError.message : LocationError → String
  | unknownParameter name => s!"error with configuration: unknown query parameter `{name}` while parsing connection URL"
  | unknownValue parameter value => s!"error with configuration: unknown value {Text.quoted value} for `{parameter}`"
  | notText b => s!"error with configuration: {b.message}"
  | nul => "error communicating with database: filename passed to SQLite must not contain nul bytes"
  | address e => s!"error returned from database: {e.message}"

namespace StoreLocation

/-- What the parameters of a location ask for. -/
structure Options where
  readOnly : Bool := false
  create : Bool := false
  inMemory : Bool := false
  system : Option String := none

/-- What the parameters ask for with one more. -/
def Options.add (o : Options) (name value : String) : Except LocationError Options :=
  match name, value with
  | "mode", "ro" => .ok { o with readOnly := true }
  | "mode", "rw" => .ok o
  | "mode", "rwc" => .ok { o with create := true }
  | "mode", "memory" => .ok { o with inMemory := true }
  | "vfs", _ => .ok { o with system := some value }
  | _, _ =>
    if [("cache", "private"), ("cache", "shared"), ("immutable", "true"), ("immutable", "1"), ("immutable", "false"),
      ("immutable", "0")].contains (name, value) then .ok o
    else if ["mode", "cache", "immutable"].contains name then .error (.unknownValue name value)
    else .error (.unknownParameter name)

/-- How the store is opened. -/
def Options.mode (o : Options) : StoreMode :=
  ⟨if o.readOnly then .readOnly else if o.create then .create else .existing, o.inMemory⟩

/-- The characters without a front as often as it stands there, at most so many times. -/
def stripFront (front : List Char) : Nat → List Char → List Char
  | 0, cs => cs
  | times + 1, cs => if front.isPrefixOf cs then stripFront front times (cs.drop front.length) else cs

/-- A part of a parameter: a plus is a blank, and escapes are read. -/
def parameterText (cs : List Char) : String :=
  Text.ofUtf8Lossy (Text.percentBytes (cs.map fun c => if c = '+' then ' ' else c))

/-- The parameters of a location, each a name and a value. -/
def parameters (cs : List Char) : List (String × String) :=
  (parameterParts cs).map fun (name, value) => (parameterText name, parameterText value)

/-- The place of a store whose location is given. -/
def placeOf (location : String) : Except LocationError StorePlace := do
  let address := ("sqlite:" ++ location ++ "?mode=rwc").toList
  let bare := stripFront "sqlite:".toList address.length (stripFront "sqlite://".toList address.length address)
  let name ← (Text.percentDecoded (String.ofList (bare.takeWhile (· ≠ '?')))).mapError .notText
  let options ← (parameters ((bare.dropWhile (· ≠ '?')).drop 1)).foldlM (fun o p => o.add p.1 p.2) ({} : Options)
  if name.contains '\x00' then throw .nul
  let file := match options.system with
    | none => name
    | some system => "file:" ++ name ++ "?vfs=" ++ Text.formEncoded system
  (StorePlace.ofName options.mode file).mapError .address

end StoreLocation

end EquityScreen
