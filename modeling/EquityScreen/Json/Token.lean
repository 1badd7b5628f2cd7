import EquityScreen.Json.Value

/-!
# Tokens of a document

Text becomes tokens one character at a time: the scanner is in one state, and a character moves it to the next state and
gives up to two tokens. What cannot be part of any document gives the token `bad`, after which nothing is read. A number ends
at the first character that cannot carry it on, and a word at its last letter.

A number may be written in the grammar of documents and yet be too large for a double, and a text may hold half of a
surrogate pair. Such a token has no value, but it is one: `oversized` or `halved`.
-/

namespace EquityScreen.Json

/-- A token. -/
inductive Token where
  | openList | closeList | openObject | closeObject | comma | colon
  | null | bool (b : Bool) | number (n : Number) | text (s : String)
  /-- A number too large for a double. -/
  | oversized
  /-- A text with half of a surrogate pair. -/
  | halved
  | bad

/-- A significand of 64 bits and the power of ten it is scaled by, while digits are read. -/
structure Scaled where
  significand : Nat
  exponent : Int

/-- One more digit, if the significand has room for it. -/
def Scaled.push? (s : Scaled) (c : Char) (places : Int) : Option Scaled :=
  let n := digitsValue s.significand [c]
  if n < Nat.pow 2 64 then some ⟨n, s.exponent + places⟩ else none

/-- The digits before the point. From the first digit for which there is no room, digits count as places only. -/
def Scaled.wholeDigits (s : Scaled) : List Char → Scaled
  | [] => s
  | c :: rest =>
    match s.push? c 0 with
    | some t => t.wholeDigits rest
    | none => ⟨s.significand, s.exponent + (rest.length + 1)⟩

/-- The digits behind the point. From the first digit for which there is no room, digits are left out. -/
def Scaled.fractionDigits (s : Scaled) : List Char → Scaled
  | [] => s
  | c :: rest =>
    match s.push? c (-1) with
    | some t => t.fractionDigits rest
    | none => s

/-- A power of ten as the nearest double. -/
def tenTo (n : Nat) : Float := Float.ofScientific 1 false n

/-- A double scaled by a power of ten in at most so many steps, each of which rounds; `none` if it grows too large. -/
def scaleTen (x : Float) (e : Int) : Nat → Option Float
  | 0 => some 0.0
  | steps + 1 =>
    if e.natAbs ≤ 308 then
      if e < 0 then some (x / tenTo e.natAbs)
      else
        let y := x * tenTo e.natAbs
        if y.isInf then none else some y
    else if x == 0.0 then some x
    else if 0 ≤ e then none
    else scaleTen (x / tenTo 308) (e + 308) steps

/-- The double of a significand and its power of ten: both are rounded before they are brought together. -/
def Scaled.toFloat? (s : Scaled) : Option Float :=
  scaleTen (Float.ofNat s.significand) s.exponent 4

/-- The exponent that ends a number, if there is one. -/
def exponentPart? : List Char → Option Int
  | [] => some 0
  | e :: rest =>
    if e = 'e' || e = 'E' then
      let (down, digits) := match rest with
        | '-' :: more => (true, more)
        | '+' :: more => (false, more)
        | _ => (false, rest)
      if digits.isEmpty || digits.any (!·.isDigit) then none
      else
        let n : Int := digitsValue 0 digits
        some (if down then -n else n)
    else none

/-- The number written by the characters, if they are one number of the grammar that a double can hold. A whole number of 64
bits stays whole; any other number is a double. -/
def Number.read (cs : List Char) : Option Number := do
  let (minus, rest) := match cs with
    | '-' :: tail => (true, tail)
    | _ => (false, cs)
  let digits := rest.takeWhile Char.isDigit
  let rest := rest.dropWhile Char.isDigit
  if digits.isEmpty || (digits.head? == some '0' && digits.length > 1) then none
  let n := digitsValue 0 digits
  if rest.isEmpty && !minus && n < Nat.pow 2 64 then return .whole n
  if rest.isEmpty && minus && n ≠ 0 && n ≤ Nat.pow 2 63 then return .negative n
  let (hasPoint, fraction, rest) := match rest with
    | '.' :: tail => (true, tail.takeWhile Char.isDigit, tail.dropWhile Char.isDigit)
    | _ => (false, [], rest)
  if hasPoint && fraction.isEmpty then none
  let e ← exponentPart? rest
  let scaled := (Scaled.wholeDigits ⟨0, 0⟩ digits).fractionDigits fraction
  let x ← Scaled.toFloat? { scaled with exponent := scaled.exponent + e }
  return .real (if minus then -x else x)

/-- Where in a number the scanner is. -/
inductive NumberPlace where
  /-- After the minus. -/
  | minus
  /-- After a zero in front, which no digit may follow. -/
  | zero
  | whole
  /-- After the point. -/
  | point
  | fraction
  /-- After the `e`. -/
  | e
  /-- After the sign of the exponent. -/
  | sign
  | exponent
  deriving DecidableEq, Repr

/-- What a character does to a number. -/
inductive NumberStep where
  | goesOn (place : NumberPlace)
  /-- The number ended before the character. -/
  | ends
  /-- The number cannot go on, nor end, here. -/
  | breaks
  deriving DecidableEq, Repr

/-- One character of a number. -/
def NumberPlace.step (p : NumberPlace) (c : Char) : NumberStep :=
  match p with
  | minus => if c = '0' then .goesOn zero else if c.isDigit then .goesOn whole else .breaks
  | zero => if c.isDigit then .breaks else tail c
  | whole => if c.isDigit then .goesOn whole else tail c
  | point => if c.isDigit then .goesOn fraction else .breaks
  | fraction => if c.isDigit then .goesOn fraction else if c = 'e' || c = 'E' then .goesOn e else .ends
  | e => if c = '+' || c = '-' then .goesOn sign else if c.isDigit then .goesOn exponent else .breaks
  | sign => if c.isDigit then .goesOn exponent else .breaks
  | exponent => if c.isDigit then .goesOn exponent else .ends
where
  /-- A character after the whole digits. -/
  tail (c : Char) : NumberStep :=
    if c = '.' then .goesOn point else if c = 'e' || c = 'E' then .goesOn e else .ends

/-- A number may end with the text. -/
def NumberPlace.mayEnd : NumberPlace → Bool
  | zero | whole | fraction | exponent => true
  | minus | point | e | sign => false

/-- A text that is being read: its characters, newest first, the first half of a pair waiting for the second, and whether
every half so far has found its other half. -/
structure TextRun where
  chars : List Char := []
  high : Option Nat := none
  intact : Bool := true

namespace TextRun

/-- A character. A first half waiting for a second one is left alone by it. -/
def push (r : TextRun) (c : Char) : TextRun := ⟨c :: r.chars, none, r.intact && r.high.isNone⟩

/-- A code unit, which is a character or half of one. -/
def pushUnit (r : TextRun) (unit : Nat) : TextRun :=
  let isHigh := 0xD800 ≤ unit && unit ≤ 0xDBFF
  let isLow := 0xDC00 ≤ unit && unit ≤ 0xDFFF
  match r.high with
  | some high =>
    if isLow then ⟨Char.ofNat (0x10000 + (high - 0xD800) * 0x400 + (unit - 0xDC00)) :: r.chars, none, r.intact⟩
    else { r with high := none, intact := false }
  | none =>
    if isHigh then { r with high := some unit }
    else if isLow then { r with intact := false }
    else r.push (Char.ofNat unit)

/-- The token of a finished text. -/
def token (r : TextRun) : Token :=
  if r.intact && r.high.isNone then .text (String.ofList r.chars.reverse) else .halved

end TextRun

/-- Where the scanner is. -/
inductive Scan where
  /-- Between tokens. -/
  | between
  /-- In a number, whose characters are kept newest first. -/
  | number (place : NumberPlace) (run : List Char)
  /-- In a word, of which these letters are to come. -/
  | word (left : List Char) (token : Token)
  /-- In a text. -/
  | text (run : TextRun)
  /-- After a backslash in a text. -/
  | escape (run : TextRun)
  /-- In a four-digit escape: the digits still to come, and the value so far. -/
  | unit (run : TextRun) (left value : Nat)
  /-- Nothing more is read. -/
  | stopped

/-- The value of a hexadecimal digit. -/
def hexDigit? (c : Char) : Option Nat :=
  if c.isDigit then some (c.toNat - '0'.toNat)
  else if 'a' ≤ c && c ≤ 'f' then some (c.toNat - 'a'.toNat + 10)
  else if 'A' ≤ c && c ≤ 'F' then some (c.toNat - 'A'.toNat + 10)
  else none

/-- The token of a finished number. -/
def numberToken (run : List Char) : Token :=
  match Number.read run.reverse with
  | some n => .number n
  | none => .oversized

/-- A character between tokens. -/
def Scan.start (c : Char) : Scan × List Token :=
  if c = ' ' || c = '\n' || c = '\t' || c = '\r' then (.between, [])
  else if c = '[' then (.between, [.openList])
  else if c = ']' then (.between, [.closeList])
  else if c = '\x7b' then (.between, [.openObject])
  else if c = '\x7d' then (.between, [.closeObject])
  else if c = ',' then (.between, [.comma])
  else if c = ':' then (.between, [.colon])
  else if c = '"' then (.text {}, [])
  else if c = '-' then (.number .minus [c], [])
  else if c = '0' then (.number .zero [c], [])
  else if c.isDigit then (.number .whole [c], [])
  else if c = 'n' then (.word ['u', 'l', 'l'] .null, [])
  else if c = 't' then (.word ['r', 'u', 'e'] (.bool true), [])
  else if c = 'f' then (.word ['a', 'l', 's', 'e'] (.bool false), [])
  else (.stopped, [.bad])

/-- The character after a backslash. -/
def Scan.escaped (run : TextRun) (c : Char) : Scan × List Token :=
  if c = '"' || c = '\\' || c = '/' then (.text (run.push c), [])
  else if c = 'b' then (.text (run.push '\x08'), [])
  else if c = 'f' then (.text (run.push '\x0c'), [])
  else if c = 'n' then (.text (run.push '\n'), [])
  else if c = 'r' then (.text (run.push '\r'), [])
  else if c = 't' then (.text (run.push '\t'), [])
  else if c = 'u' then (.unit run 4 0, [])
  else (.stopped, [.bad])

/-- One character. -/
def Scan.step : Scan → Char → Scan × List Token
  | .between, c => start c
  | .number place run, c =>
    match place.step c with
    | .goesOn next => (.number next (c :: run), [])
    | .breaks => (.stopped, [.bad])
    | .ends =>
      let (next, tokens) := start c
      (next, numberToken run :: tokens)
  | .word [] token, _ => (.stopped, [token])
  | .word [last] token, c => if c = last then (.between, [token]) else (.stopped, [.bad])
  | .word (letter :: left) token, c => if c = letter then (.word left token, []) else (.stopped, [.bad])
  | .text run, c =>
    if c = '"' then (.between, [run.token])
    else if c = '\\' then (.escape run, [])
    else if c.toNat < 0x20 then (.stopped, [.bad])
    else (.text (run.push c), [])
  | .escape run, c => escaped run c
  | .unit run left value, c =>
    match hexDigit? c with
    | none => (.stopped, [.bad])
    | some d =>
      if left ≤ 1 then (.text (run.pushUnit (value * 16 + d)), []) else (.unit run (left - 1) (value * 16 + d), [])
  | .stopped, _ => (.stopped, [])

/-- The tokens that the end of the text completes. -/
def Scan.finish : Scan → List Token
  | .between | .stopped => []
  | .number place run => if place.mayEnd then [numberToken run] else [.bad]
  | _ => [.bad]

/-- The tokens still to come from a state and the rest of the text. -/
def Scan.tokens (s : Scan) : List Char → List Token
  | [] => s.finish
  | c :: rest =>
    let (next, found) := s.step c
    found ++ next.tokens rest

end EquityScreen.Json
