import EquityScreen.Decimal.Literal
import EquityScreen.Decimal.Layout
import EquityScreen.Text.Quoted

/-!
# Values and literals

A value is what a row holds for a field: a number or a text. A literal is what a condition compares with: a number, a text
or a list of literals. Where a number is wanted, a text that reads as a number is one.
-/

namespace EquityScreen

/-- What a row, a snapshot or a series holds for a field. -/
inductive Value where
  | number (x : Float)
  | text (s : String)
  deriving DecidableEq

namespace Value

/-- The value as a number. -/
def asNumber : Value → Option Float
  | number x => some x
  | text s => Decimal.read s

/-- The value as a text; a number is none. -/
def asText : Value → Option String
  | number _ => none
  | text s => some s

/-- The value is the mark of a missing number. A text never is, not even one that reads as that mark. -/
def isMissing : Value → Bool
  | number x => x.isNaN
  | text _ => false

/-- The value as a message quotes it. -/
def quoted : Value → String
  | number x => "Number(" ++ Layout.exact.write x ++ ")"
  | text s => "Text(" ++ Text.quoted s ++ ")"

end Value

/-- What a condition compares with. -/
inductive Literal where
  | number (x : Float)
  | text (s : String)
  | list (items : List Literal)

namespace Literal

/-- The literal of a value. -/
def ofValue : Value → Literal
  | .number x => .number x
  | .text s => .text s

/-- The literal as a number; a list is none. -/
def asNumber : Literal → Option Float
  | number x => some x
  | text s => Decimal.read s
  | list _ => none

/-- The literal as a text. -/
def asText : Literal → Option String
  | text s => some s
  | _ => none

/-- The items of a list. -/
def asList : Literal → Option (List Literal)
  | list items => some items
  | _ => none

/-- The two bounds of a range: a list of exactly two literals that are numbers. -/
def asBounds : Literal → Option (Float × Float)
  | list [low, high] => do return (← low.asNumber, ← high.asNumber)
  | _ => none

mutual

/-- Every number of the literal changed, those inside lists too; texts stay. -/
def mapNumbers (f : Float → Float) : Literal → Literal
  | number x => number (f x)
  | text s => text s
  | list items => list (mapNumbersAll f items)

/-- Every number of every literal changed. -/
def mapNumbersAll (f : Float → Float) : List Literal → List Literal
  | [] => []
  | item :: rest => mapNumbers f item :: mapNumbersAll f rest

end

mutual

/-- The literal as a message quotes it. -/
def quoted : Literal → String
  | number x => "Number(" ++ Layout.exact.write x ++ ")"
  | text s => "Text(" ++ Text.quoted s ++ ")"
  | list items => "List([" ++ quotedAll items ++ "])"

/-- The literals of a list as a message quotes them. -/
def quotedAll : List Literal → String
  | [] => ""
  | [item] => quoted item
  | item :: rest => quoted item ++ ", " ++ quotedAll rest

end

end Literal

end EquityScreen
