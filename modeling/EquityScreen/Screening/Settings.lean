import EquityScreen.Decimal.Basic
import EquityScreen.Decimal.Whole
import EquityScreen.Text.Blank

/-!
# Settings

A screener has five settings. Each is read from a variable of its own; a number that does not read keeps its default.
-/

namespace EquityScreen

/-- How a screener runs. -/
structure Settings where
  databasePath : String := "data/screener.db"
  /-- How many symbols are evaluated at most. -/
  universeCap : Nat := 120
  /-- How many days before the day of a screen its bars begin. -/
  lookbackDays : Nat := 220
  /-- How many symbols are evaluated side by side. -/
  concurrency : Nat := 8
  /-- How many milliseconds the symbols may take; without a limit every symbol is waited for. -/
  deadline : Option Nat := none
  deriving DecidableEq, Repr, Inhabited

/-- A whole number of 64 bits in decimal digits, with or without a plus. -/
def readCount (s : String) : Option Nat :=
  let digits := match s.toList with
    | '+' :: rest => rest
    | cs => cs
  if digits.isEmpty || digits.any (!·.isDigit) then none
  else
    let n := digitsValue 0 digits
    if n ≤ greatestCount then some n else none

/-- A whole number of 64 bits with white space around it. -/
def readTrimmedCount (s : String) : Option Nat :=
  readCount (String.ofList (Text.trim s.toList))

/-- The variables that settings are read from. -/
def Settings.variableNames : List String :=
  ["SCREENER_DB_PATH", "SCREENER_UNIVERSE_CAP", "SCREENER_LOOKBACK_DAYS", "SCREENER_CONCURRENCY", "SCREENER_DEADLINE_MS"]

/-- The settings that variables give. -/
def Settings.ofVariables (lookup : String → Option String) : Settings :=
  let count? (name : String) : Option Nat := (lookup name).bind readTrimmedCount
  let fallback : Settings := {}
  { databasePath := (lookup "SCREENER_DB_PATH").getD fallback.databasePath
    universeCap := (count? "SCREENER_UNIVERSE_CAP").getD fallback.universeCap
    lookbackDays := (count? "SCREENER_LOOKBACK_DAYS").getD fallback.lookbackDays
    concurrency := ((count? "SCREENER_CONCURRENCY").map (max 1)).getD fallback.concurrency
    deadline := count? "SCREENER_DEADLINE_MS" }

end EquityScreen
