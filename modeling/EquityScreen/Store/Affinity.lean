import EquityScreen.Decimal.Extended
import EquityScreen.Decimal.Layout
import EquityScreen.Decimal.Literal

/-!
# Numbers and texts of the store

Where the store meets a number and a text it turns one into the other. A number becomes a text of at most fifteen digits,
with a point always. A text becomes a number if the whole of it reads as one; where a number is wanted in any case, as much
of its front as reads as one counts, and nothing counts as zero.
-/

namespace EquityScreen

/-- The blanks of the store. -/
def isStoreBlank (c : Char) : Bool :=
  c = ' ' || (9 ≤ c.toNat && c.toNat ≤ 13)

/-- A finite double to fifteen digits. The digits come from the eighteen or nineteen of its window, cut off below the point
there and then rounded at the fifteenth, a half upwards. -/
def fifteenDigits (x : Float) : Decimal :=
  if x == 0.0 then ⟨signBit x, 0, 0⟩
  else
    let (window, e) := Extended.window x
    let digits := window.floor
    let drop := digitCount digits - 15
    let kept := (digits / Nat.pow 10 (drop - 1) + 5) / 10
    let (n, e) := trimZeros kept (e + drop) 20
    ⟨signBit x, n, e⟩

/-- The text a finite number becomes. -/
def storedText (x : Float) : String :=
  let d := fifteenDigits x
  if d.digits = 0 then "0.0"
  else
    let digits := toString d.digits
    let point := d.exponent + digits.length
    (if d.negative then "-" else "") ++
      if -4 < point ∧ point ≤ 15 then positional digits point true
      else
        let tail := (digits.drop 1).toString
        let e := toString (point - 1).natAbs
        (digits.take 1).toString ++ "." ++ (if tail.isEmpty then "0" else tail) ++ (if point - 1 < 0 then "e-" else "e+") ++
          zeros (2 - e.length) ++ e

/-- A number as it stands at the front of a text. -/
structure LeadingNumber where
  negative : Bool
  /-- The digits that are kept: those of the first nineteen, and a twentieth where 64 bits hold it. -/
  digits : Nat
  /-- The power of ten they are scaled by. -/
  exponent : Int
  /-- There is neither a point nor an exponent, and this is the whole number. -/
  whole : Option Nat

/-- There is room for one more digit. -/
def hasRoom (digits : Nat) : Bool := digits < (Nat.pow 2 64 - 10) / 10

/-- The digits before the point that are kept, and how many are not. From the first without room on none is kept. -/
def keptWhole (digits : Nat) : List Char → Nat × Nat
  | [] => (digits, 0)
  | c :: rest =>
    let next := digitsValue digits [c]
    if hasRoom next then keptWhole next rest else (next, rest.length)

/-- The digits behind the point that are kept, and how many are. -/
def keptFraction (digits kept : Nat) : List Char → Nat × Nat
  | [] => (digits, kept)
  | c :: rest =>
    if hasRoom digits then keptFraction (digitsValue digits [c]) (kept + 1) rest else keptFraction digits kept rest

/-- The value of the digits of an exponent. One of six digits or more counts as ten thousand. -/
def exponentValue (digits : List Char) : Nat :=
  digits.foldl (fun n c => if n < 10000 then digitsValue n [c] else 10000) 0

/-- An exponent in front, if there is one, and what follows it; an `e` without digits is none. -/
def leadingExponent : List Char → Option Int × List Char
  | [] => (none, [])
  | c :: rest =>
    let (minus, tail) := Decimal.sign rest
    let (digits, after) := Decimal.spanDigits tail
    if (c = 'e' || c = 'E') && !digits.isEmpty then
      let n : Int := exponentValue digits
      (some (if minus then -n else n), after)
    else (none, c :: rest)

namespace LeadingNumber

/-- The number in front of the characters, and what follows it. -/
def read (cs : List Char) : Option LeadingNumber × List Char :=
  let (negative, cs) := Decimal.sign (cs.dropWhile isStoreBlank)
  let (whole, rest) := Decimal.spanDigits cs
  let (hasPoint, fraction, rest) :=
    match rest with
    | '.' :: tail => (true, Decimal.spanDigits tail)
    | _ => (false, [], rest)
  if whole.isEmpty && fraction.isEmpty then (none, cs)
  else
    let (e, rest) := leadingExponent rest
    let (digits, left) := keptWhole 0 whole
    let (digits, kept) := keptFraction digits 0 fraction
    let wholePart := if hasPoint || e.isSome then none else some (digitsValue 0 whole)
    (some ⟨negative, digits, e.getD 0 + left - kept, wholePart⟩, rest)

/-- The digits and the power of ten with as many places moved from the power into the digits as they have room for, or out
of them as they end in zeros. -/
def balance (digits : Nat) (e : Int) : Nat → Nat × Int
  | 0 => (digits, e)
  | steps + 1 =>
    if 0 < e && digits < (Nat.pow 2 64 - 1) / 10 then balance (digits * 10) (e - 1) steps
    else if e < 0 && digits % 10 = 0 then balance (digits / 10) (e + 1) steps
    else (digits, e)

/-- The double that the digits and their power of ten come to. -/
def toFloat (n : LeadingNumber) : Float :=
  let size :=
    if n.digits = 0 then 0.0
    else
      let (digits, e) := balance n.digits n.exponent 20
      if e < -400 then 0.0 else if 400 < e then infinity else ((⟨digits, 0⟩ : Extended).scaleTen e).toFloat
  if n.negative then -size else size

/-- The whole number, if it is one of 64 bits with a sign. -/
def whole? (n : LeadingNumber) : Option Int := do
  let size ← n.whole
  if n.negative then (if size ≤ Nat.pow 2 63 then some (-(size : Int)) else none)
  else if size < Nat.pow 2 63 then some (size : Int) else none

end LeadingNumber

/-- The number that the whole of a text reads as, with nothing but blanks around it. -/
def storedNumber? (s : String) : Option LeadingNumber :=
  match LeadingNumber.read s.toList with
  | (some n, rest) => if rest.all isStoreBlank then some n else none
  | (none, _) => none

/-- The double that the front of a text reads as. -/
def leadingNumber (s : String) : Float :=
  match LeadingNumber.read s.toList with
  | (some n, _) => n.toFloat
  | (none, _) => 0.0

end EquityScreen
