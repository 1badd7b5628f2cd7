/-!
# Operators

The twelve ways a condition compares. Each is written by one symbol and read from that symbol or from a spelled-out name.
-/

namespace EquityScreen

/-- A comparison of a condition. -/
inductive Operator where
  | gt | lt | gte | lte | eq | ne | between | isIn | notIn | contains | crossUp | crossDown
  deriving DecidableEq, Repr

namespace Operator

/-- Every operator, in the order of their declaration. -/
def all : List Operator :=
  [gt, lt, gte, lte, eq, ne, between, isIn, notIn, contains, crossUp, crossDown]

/-- The operators of a number that is stored. -/
def numeric : List Operator := [gt, lt, gte, lte, eq, ne, between]

/-- The operators of a text. -/
def textual : List Operator := [eq, ne, isIn, notIn, contains]

/-- The operators of a number that is computed from bars. -/
def technical : List Operator := [gt, lt, gte, lte, eq, ne, between, crossUp, crossDown]

/-- The symbol an operator is written by. -/
def symbol : Operator → String
  | gt => ">"
  | lt => "<"
  | gte => ">="
  | lte => "<="
  | eq => "=="
  | ne => "!="
  | between => "between"
  | isIn => "in"
  | notIn => "not_in"
  | contains => "contains"
  | crossUp => "cross_up"
  | crossDown => "cross_down"

/-- The names an operator is read from besides its symbol. -/
def otherNames : Operator → List String
  | gt => ["gt"]
  | lt => ["lt"]
  | gte => ["gte"]
  | lte => ["lte"]
  | eq => ["eq", "="]
  | ne => ["ne"]
  | notIn => ["nin"]
  | _ => []

/-- The operator a text names. -/
def ofName? (s : String) : Option Operator :=
  all.find? fun op => op.symbol == s || op.otherNames.contains s

/-- The operator compares two rows of a series. -/
def isCross : Operator → Bool
  | crossUp | crossDown => true
  | _ => false

/-- The operator's literal is a list. -/
def takesList : Operator → Bool
  | between | isIn | notIn => true
  | _ => false

end Operator

end EquityScreen
