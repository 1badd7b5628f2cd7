import EquityScreen.Decimal.Basic
import EquityScreen.Text.Blank

/-!
# Text that reads as a number

A number in text is an optional sign and then `inf`, `infinity` or `nan` in any case, or digits with at most one point and an
optional exponent. There is a digit on at least one side of the point and at least one in the exponent. White space around
the number is not part of it.
-/

namespace EquityScreen.Decimal

/-- The leading digits, and what follows them. -/
def spanDigits (cs : List Char) : List Char × List Char :=
  (cs.takeWhile Char.isDigit, cs.dropWhile Char.isDigit)

/-- A sign in front, `true` for a minus, and what follows it. No sign is a plus. -/
def sign : List Char → Bool × List Char
  | '-' :: rest => (true, rest)
  | '+' :: rest => (false, rest)
  | cs => (false, cs)

/-- The exponent that ends a number: nothing, or `e`, an optional sign and digits to the end. -/
def exponentPart : List Char → Option Int
  | [] => some 0
  | e :: rest =>
    if e = 'e' || e = 'E' then
      let (minus, digits) := sign rest
      if digits.isEmpty || digits.any (!·.isDigit) then none
      else
        let n : Int := digitsValue 0 digits
        some (if minus then -n else n)
    else none

/-- Digits with an optional point and exponent, as a decimal of the given sign. -/
def ofUnsigned (negative : Bool) (cs : List Char) : Option Decimal :=
  let (whole, rest) := spanDigits cs
  let (fraction, rest) :=
    match rest with
    | '.' :: tail => spanDigits tail
    | _ => ([], rest)
  if whole.isEmpty && fraction.isEmpty then none
  else (exponentPart rest).map fun e =>
    ⟨negative, digitsValue (digitsValue 0 whole) fraction, e - fraction.length⟩

/-- The names of numbers that are not written with digits, in small letters. -/
def named (name : String) : Option Float :=
  if name = "inf" || name = "infinity" then some infinity
  else if name = "nan" then some notANumber
  else none

/-- The number a text reads as, without white space around it. -/
def readChars (cs : List Char) : Option Float :=
  let (minus, rest) := sign cs
  match named (String.ofList (rest.map Char.toLower)) with
  | some x => some (if minus then -x else x)
  | none => (ofUnsigned minus rest).map toFloat

/-- The number a text reads as once the white space around it is gone. -/
def read (s : String) : Option Float :=
  readChars (Text.trim s.toList)

end EquityScreen.Decimal
