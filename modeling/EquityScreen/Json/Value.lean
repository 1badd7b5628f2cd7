import EquityScreen.Decimal.Basic

/-!
# Documents

A document is null, a truth value, a number, a text, a list of documents or a list of named members. The members keep their
order and a name may stand twice: what a repeated name means is for the reader of a record to say (`Json.Record`). Numbers
keep the kind they are written in, because a count accepts whole numbers only.
-/

namespace EquityScreen

/-- A number of a document: a whole number of 64 bits, a negative whole number of 64 bits, or a double. -/
inductive Json.Number where
  | whole (n : Nat)
  | negative (n : Nat)
  | real (x : Float)

/-- A document. -/
inductive Json where
  | null
  | bool (b : Bool)
  | number (n : Json.Number)
  | text (s : String)
  | list (items : List Json)
  | object (members : List (String × Json))

namespace Json

/-- The number as a double; `negative n` is the number `-n`. -/
def Number.toFloat : Number → Float
  | .whole n => Float.ofNat n
  | .negative n => -(Float.ofNat n)
  | .real x => x

/-- The document of a double. -/
def real (x : Float) : Json := .number (.real x)

/-- The document of a count. -/
def nat (n : Nat) : Json := .number (.whole n)

/-- The document of a whole number. -/
def int (n : Int) : Json :=
  if n < 0 then .number (.negative n.natAbs) else .number (.whole n.natAbs)

/-- A list of texts. -/
def texts (ss : List String) : Json := .list (ss.map .text)

/-- A value that may be absent; an absent one is null. -/
def orNull {α : Type} (f : α → Json) : Option α → Json
  | none => .null
  | some a => f a

/-- The value of the last member with the name. -/
def member? (name : String) : Json → Option Json
  | .object members => (members.reverse.find? (·.1 == name)).map (·.2)
  | _ => none

end Json

end EquityScreen
