import EquityScreen.Json.Reader

/-!
# Records read from drafts

A record that is read from a draft is read field by field in the order of the text, and the first fault ends the reading:
what follows it is not looked at, not even to see whether the text goes on. A member that belongs to no field is passed over
if it is finished. In a list the values stand in the order of the fields, and a value too many breaks the list.
-/

namespace EquityScreen.Json.Draft

/-- A field of a record: the names it answers to, and how its value changes the record. -/
structure Field (ρ : Type) where
  names : List String
  read : Draft → ρ → Read ρ

variable {ρ : Type}

/-- The record after the members of an object; the fields already given are marked by their numbers. -/
def readMembers (fields : List (Field ρ)) (seen : List Nat) (r : ρ) : List (Option String × Draft) → Read ρ
  | [] => .ok r
  | (none, _) :: _ => .error .malformed
  | (some name, d) :: rest =>
    match fields.zipIdx.find? (·.1.names.contains name) with
    | none => if d.isFinished then readMembers fields seen r rest else .error .malformed
    | some (field, i) => if seen.contains i then .error .shape else do readMembers fields (i :: seen) (← field.read d r) rest

/-- The record after the items of a list, and whether there were more items than fields. -/
def readPositions (r : ρ) : List (Field ρ) → List Draft → Read (ρ × Bool)
  | _, [] => .ok (r, false)
  | [], _ :: _ => .ok (r, true)
  | field :: fields, d :: rest => do readPositions (← field.read d r) fields rest

/-- The record of a draft, its fields changing one that is given. -/
def readRecord (fields : List (Field ρ)) (start : ρ) : Draft → Read ρ
  | object members finished => do
    let r ← readMembers fields [] start members
    if finished then return r else throw .malformed
  | list items finished => do
    let (r, tooMany) ← readPositions start fields items
    if tooMany || !finished then throw .malformed else return r
  | d => d.readScalar fun _ => .error .shape

end EquityScreen.Json.Draft
