/-!
# Names in order

A list of names in increasing order without repetition. Names are ordered by their characters.
-/

namespace EquityScreen.Text

/-- A name put in its place among names in increasing order, once. -/
def insertName (name : String) : List String → List String
  | [] => [name]
  | n :: rest => if name < n then name :: n :: rest else if name = n then n :: rest else n :: insertName name rest

/-- The names in increasing order, each once. -/
def sortNames (names : List String) : List String :=
  names.foldl (fun sorted name => insertName name sorted) []

end EquityScreen.Text
