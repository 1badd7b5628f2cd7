import EquityScreen.Text.Utf8

/-!
# Percent escapes

In an address a percent sign and two hexadecimal digits stand for a byte. A percent sign without them stands for itself, as
every other character does. In the parameters of an address a plus stands for a blank.
-/

namespace EquityScreen.Text

/-- The value of a hexadecimal digit. -/
def hexValue? (c : Char) : Option Nat :=
  if c.isDigit then some (c.toNat - '0'.toNat)
  else if 'a' ≤ c && c ≤ 'f' then some (c.toNat - 'a'.toNat + 10)
  else if 'A' ≤ c && c ≤ 'F' then some (c.toNat - 'A'.toNat + 10)
  else none

/-- The bytes of characters with escapes. -/
def percentBytes : List Char → List UInt8
  | '%' :: a :: b :: rest =>
    match hexValue? a, hexValue? b with
    | some high, some low => UInt8.ofNat (16 * high + low) :: percentBytes rest
    | _, _ => '%'.toString.toUTF8.toList ++ percentBytes (a :: b :: rest)
  | c :: rest => c.toString.toUTF8.toList ++ percentBytes rest
  | [] => []

/-- The text that a text with escapes stands for, or where its bytes cease to be one. -/
def percentDecoded (s : String) : Except Utf8Break String := ofUtf8 (percentBytes s.toList)

/-- The written form of a byte in the parameters of an address. -/
def formByte (b : UInt8) : List Char :=
  let c := Char.ofNat b.toNat
  if b < 128 && (c.isAlphanum || ['*', '-', '.', '_'].contains c) then [c]
  else if c = ' ' then ['+']
  else '%' :: (Nat.toDigits 16 (256 + b.toNat)).tail.map Char.toUpper

/-- The written form of a text in the parameters of an address. -/
def formEncoded (s : String) : String := String.ofList (s.toUTF8.toList.flatMap formByte)

end EquityScreen.Text
