import EquityScreen.Json.Draft
import EquityScreen.Json.Record

/-!
# Reading documents

A text is read as a document if all of it can be read. `Json.readFirst?` ignores what follows the document, `Json.read?` asks
that nothing does. A document nested 128 deep or deeper is refused.
-/

namespace EquityScreen.Json

/-- The greatest number of lists and objects that may be open at once. -/
def depthLimit : Nat := 127

/-- The first document of the text, whatever follows it. -/
def readFirst? (s : String) : Option Json := (Draft.ofText s).1.whole? depthLimit

/-- The text as one document, with nothing but white space around it. -/
def read? (s : String) : Option Json :=
  match Draft.ofText s with
  | (d, []) => d.whole? depthLimit
  | _ => none

namespace Draft

/-- What a value that is taken as a whole reads as, so many lists and objects being open around it. -/
def readWhole {α : Type} (depth : Nat) (read : Json → Read α) (d : Draft) : Read α :=
  match d.whole? (depthLimit - depth) with
  | some v => read v
  | none => .error .malformed

/-- What a value reads as where neither a list nor an object is wanted. -/
def readScalar {α : Type} (read : Json → Read α) : Draft → Read α
  | list .. | object .. => .error .shape
  | d => d.readWhole 0 read

/-- What the items of a list read as, one after another. -/
def readItems {α : Type} (read : Draft → Read α) : Draft → Read (List α)
  | list items finished => do
    let found ← items.mapM read
    if finished then return found else throw .malformed
  | d => d.readScalar fun _ => .error .shape

/-- The draft without the members whose names belong to no field, which are only passed over. -/
def prune (names : List (List String)) : Draft → Draft
  | object members finished =>
    object (members.filter fun (name, _) => name.all fun n => (fieldIndex names n).isSome) finished
  | d => d

/-- What a text that is one document reads as. A fault of the document comes before one of what follows it. -/
def readText {α : Type} (read : Draft → Read α) (s : String) : Read α := do
  let (d, rest) := Draft.ofText s
  let a ← read d
  if rest.isEmpty then return a else throw .malformed

end Draft

end EquityScreen.Json
