import EquityScreen.Text.Percent

/-!
# Addresses of store files

The name of the file that keeps a store may be an address. After `file:` comes a path, perhaps with two slashes and an
authority before it, which is empty or `localhost`. A question mark begins the parameters and a number sign ends the address.
Escapes stand for bytes, and a byte of zero hides the rest of the part it stands in.

Of the parameters three say something: `mode` how the file is used, `vfs` which file system it belongs to, and `cache`, which
must be known and changes nothing. Names that lead to no file stand for a store that is not kept at all.
-/

namespace EquityScreen

/-- How a file is used. -/
inductive Access where
  /-- It is there and is not changed. -/
  | readOnly
  /-- It is there. -/
  | existing
  /-- It is made if it is not there. -/
  | create
  deriving DecidableEq, Repr

/-- How much a use allows. -/
def Access.rank : Access → Nat
  | readOnly => 0
  | existing => 1
  | create => 2

/-- The use that a mode names. -/
def Access.ofName? : String → Option Access
  | "ro" => some readOnly
  | "rw" => some existing
  | "rwc" => some create
  | _ => none

/-- How a store is opened. -/
structure StoreMode where
  access : Access
  /-- The store is not kept, whatever the file. -/
  inMemory : Bool
  deriving DecidableEq, Repr

/-- Where a store is kept, and how its file is used. -/
structure StorePlace where
  /-- The path of the file. `none`: the store is not kept. -/
  file : Option String
  access : Access
  deriving DecidableEq, Repr

/-- Why an address leads nowhere. -/
inductive AddressError where
  | unknownAuthority (name : String)
  | unknownMode (kind value : String)
  /-- The mode allows more than the store was to be opened with. -/
  | excessiveMode (value : String)
  | unknownSystem (name : String)
  deriving DecidableEq, Repr

/-- The text of an error, with its code. -/
def AddressError.message : AddressError → String
  | unknownAuthority name => s!"(code: 1) invalid uri authority: {name}"
  | unknownMode kind value => s!"(code: 1) no such {kind} mode: {value}"
  | excessiveMode value => s!"(code: 3) access mode not allowed: {value}"
  | unknownSystem name => s!"(code: 1) no such vfs: {name}"

/-- The parameters of an address, each a name and a value with an equals sign between; an empty one is none. -/
def parameterParts (cs : List Char) : List (List Char × List Char) :=
  (((String.ofList cs).splitOn "&").filter (!·.isEmpty)).map fun part =>
    (part.toList.takeWhile (· ≠ '='), (part.toList.dropWhile (· ≠ '=')).drop 1)

namespace StoreMode

/-- How the store is opened with one more mode. A store that is not kept may be given any. -/
def change (m : StoreMode) (value : String) : Except AddressError StoreMode :=
  if value = "memory" then .ok ⟨.create, true⟩
  else
    match Access.ofName? value with
    | none => .error (.unknownMode "access" value)
    | some a => if m.inMemory || a.rank ≤ m.access.rank then .ok ⟨a, false⟩ else .error (.excessiveMode value)

/-- How the store is opened with parameters, and the file system that the last of them names. -/
def withParameters (m : StoreMode) (system : String) : List (String × String) → Except AddressError (StoreMode × String)
  | [] => .ok (m, system)
  | (name, value) :: rest =>
    if name = "vfs" then m.withParameters value rest
    else if name = "mode" then do (← m.change value).withParameters system rest
    else if name = "cache" && !(["shared", "private"].contains value) then .error (.unknownMode "cache" value)
    else m.withParameters system rest

end StoreMode

namespace StorePlace

/-- The file systems there are; the last one keeps nothing. -/
def fileSystems : List String := ["unix", "unix-none", "unix-dotfile", "unix-excl", "memdb"]

/-- A part of an address as a text. -/
def part (cs : List Char) : String :=
  Text.ofUtf8Lossy ((Text.percentBytes cs).takeWhile (· ≠ 0))

/-- The place of a file opened in a mode. -/
def ofFile (m : StoreMode) (file : String) : StorePlace :=
  ⟨if m.inMemory || file.isEmpty || file = ":memory:" then none else some file, m.access⟩

/-- The place of an address whose characters after `file:` are given. -/
def ofAddress (m : StoreMode) (cs : List Char) : Except AddressError StorePlace := do
  let (authority, rest) := match cs with
    | '/' :: '/' :: rest => (rest.takeWhile (· ≠ '/'), rest.dropWhile (· ≠ '/'))
    | _ => ([], cs)
  if !authority.isEmpty && authority != "localhost".toList then throw (.unknownAuthority (String.ofList authority))
  let bare := rest.takeWhile (· ≠ '#')
  let given := (parameterParts ((bare.dropWhile (· ≠ '?')).drop 1)).map fun (name, value) => (part name, part value)
  let (m, system) ← m.withParameters "unix" (given.filter (!·.1.isEmpty))
  if !fileSystems.contains system then throw (.unknownSystem system)
  return ofFile { m with inMemory := m.inMemory || system = "memdb" } (part (bare.takeWhile (· ≠ '?')))

/-- The place of a name, which may be an address. -/
def ofName (m : StoreMode) (name : String) : Except AddressError StorePlace :=
  match name.toList with
  | 'f' :: 'i' :: 'l' :: 'e' :: ':' :: rest => ofAddress m rest
  | _ => .ok (ofFile m name)

end StorePlace

end EquityScreen
