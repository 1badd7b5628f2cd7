import EquityScreen.Decimal.Basic
import EquityScreen.Text.Blank

/-!
# Calendar days

A day of the proleptic Gregorian calendar with its year, month and day. Days are counted from 1 March of year 0
(`Date.number`), which puts the leap day at the end of a counted year; every earlier or later day is reached through its
number. Years run from -262143 to 262142.

A day is written year, month, day with dashes between: the year with four digits, and with a sign when it lies outside 0 to
9999. It is read with one or two digits for month and day and a year of up to four digits, or of any length after a sign.
-/

namespace EquityScreen

/-- A calendar day. -/
structure Date where
  year : Int
  month : Nat
  day : Nat
  deriving DecidableEq, Repr

namespace Date

/-- The years a day may have. -/
def leastYear : Int := -262143

/-- The greatest year a day may have. -/
def greatestYear : Int := 262142

/-- The year has a 29 February. -/
def isLeap (year : Int) : Bool :=
  year % 4 == 0 && (year % 100 != 0 || year % 400 == 0)

/-- How many days the month has. -/
def daysIn (year : Int) (month : Nat) : Nat :=
  if month = 2 then (if isLeap year then 29 else 28)
  else if month = 4 || month = 6 || month = 9 || month = 11 then 30
  else 31

/-- The day, if the calendar has it. -/
def ofParts? (year : Int) (month day : Nat) : Option Date :=
  if leastYear ≤ year ∧ year ≤ greatestYear ∧ 1 ≤ month ∧ month ≤ 12 ∧ 1 ≤ day ∧ day ≤ daysIn year month then
    some ⟨year, month, day⟩
  else none

/-- The first day of the calendar. -/
def first : Date := ⟨leastYear, 1, 1⟩

/-- How many days lie between 1 March of year 0 and the day. -/
def number (d : Date) : Int :=
  let shifted : Nat := (d.month + 9) % 12
  let year := if d.month ≤ 2 then d.year - 1 else d.year
  365 * year + year / 4 - year / 100 + year / 400 + ((153 * shifted + 2) / 5 : Nat) + d.day - 1

/-- The day with the number. -/
def ofNumber (n : Int) : Date :=
  let era := n / 146097
  let dayOfEra := (n % 146097).toNat
  let yearOfEra := (dayOfEra - dayOfEra / 1460 + dayOfEra / 36524 - dayOfEra / 146096) / 365
  let dayOfYear := dayOfEra - (365 * yearOfEra + yearOfEra / 4 - yearOfEra / 100)
  let shifted := (5 * dayOfYear + 2) / 153
  let day := dayOfYear - (153 * shifted + 2) / 5 + 1
  let month := if shifted < 10 then shifted + 3 else shifted - 9
  let year : Int := yearOfEra + era * 400
  ⟨if month ≤ 2 then year + 1 else year, month, day⟩

/-- The day so many days earlier, or the first day of the calendar. -/
def minusDays (d : Date) (n : Nat) : Date :=
  if d.number - n < first.number then first else ofNumber (d.number - n)

/-- The day so many days later. -/
def plusDays (d : Date) (n : Nat) : Date :=
  ofNumber (d.number + n)

/-- Days in order of time. -/
def le (a b : Date) : Bool :=
  a.year < b.year || (a.year == b.year && (a.month < b.month || (a.month == b.month && a.day ≤ b.day)))

/-- A number with zeros in front up to a width. -/
def padded (width n : Nat) : String :=
  let digits := toString n
  String.ofList (List.replicate (width - digits.length) '0') ++ digits

/-- The year as it is written. -/
def yearText (year : Int) : String :=
  if 0 ≤ year ∧ year ≤ 9999 then padded 4 year.natAbs
  else (if year < 0 then "-" else "+") ++ padded 4 year.natAbs

/-- The day as it is written. -/
def toText (d : Date) : String :=
  yearText d.year ++ "-" ++ padded 2 d.month ++ "-" ++ padded 2 d.day

/-- At least one and at most `width` digits in front; the number and what follows. -/
def takeNumber (width : Nat) (cs : List Char) : Option (Nat × List Char) :=
  let digits := (cs.take width).takeWhile Char.isDigit
  if digits.isEmpty then none else some (digitsValue 0 digits, cs.drop digits.length)

/-- The year in front, after white space: up to four digits, any number of them after a sign. -/
def takeYear (cs : List Char) : Option (Int × List Char) :=
  match Text.trimLeft cs with
  | '-' :: rest => (takeNumber rest.length rest).map fun (n, tail) => (-(n : Int), tail)
  | '+' :: rest => (takeNumber rest.length rest).map fun (n, tail) => ((n : Int), tail)
  | rest => (takeNumber 4 rest).map fun (n, tail) => ((n : Int), tail)

/-- The month or day in front, after white space. -/
def takeTwo (cs : List Char) : Option (Nat × List Char) :=
  takeNumber 2 (Text.trimLeft cs)

/-- A dash in front. -/
def takeDash : List Char → Option (List Char)
  | '-' :: rest => some rest
  | _ => none

/-- A day, where `gap` removes what may stand before a dash and at the end. -/
def readWith (gap : List Char → List Char) (cs : List Char) : Option Date := do
  let (year, rest) ← takeYear cs
  let (month, rest) ← takeTwo (← takeDash (gap rest))
  let (day, rest) ← takeTwo (← takeDash (gap rest))
  if (gap rest).isEmpty then ofParts? year month day else none

/-- The day a text writes; white space may surround each part. -/
def read? (s : String) : Option Date :=
  readWith Text.trimLeft s.toList

/-- The day a stored text writes; white space may stand before a number only. -/
def readStored? (s : String) : Option Date :=
  readWith id s.toList

end Date

end EquityScreen
