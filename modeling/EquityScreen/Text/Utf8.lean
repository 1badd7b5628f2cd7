/-!
# Bytes that are a text

A character is one to four bytes: the first says how many follow and, for some, between which values the second lies. Bytes
cease to be a text where they start no character, or where a character is not carried on or not finished. The bytes there
that could have begun a character belong to the break.
-/

namespace EquityScreen.Text

/-- What stands at the front of some bytes. -/
inductive Utf8Front where
  /-- A character of so many bytes. -/
  | character (width : Nat)
  /-- So many bytes that are no character. -/
  | broken (width : Nat)
  /-- The beginning of a character at the end of the bytes. -/
  | unfinished
  deriving DecidableEq, Repr

/-- How many bytes follow a first byte, and the least and the greatest value of the first of them. -/
def utf8Followers? (b : UInt8) : Option (Nat × UInt8 × UInt8) :=
  if b < 0x80 then some (0, 0x80, 0xBF)
  else if b < 0xC2 then none
  else if b < 0xE0 then some (1, 0x80, 0xBF)
  else if b = 0xE0 then some (2, 0xA0, 0xBF)
  else if b = 0xED then some (2, 0x80, 0x9F)
  else if b < 0xF0 then some (2, 0x80, 0xBF)
  else if b = 0xF0 then some (3, 0x90, 0xBF)
  else if b < 0xF4 then some (3, 0x80, 0xBF)
  else if b = 0xF4 then some (3, 0x80, 0x8F)
  else none

/-- How many of the bytes, at most so many, carry a character on. -/
def utf8Carried (low high : UInt8) : Nat → List UInt8 → Nat
  | n + 1, b :: rest => if low ≤ b && b ≤ high then utf8Carried 0x80 0xBF n rest + 1 else 0
  | _, _ => 0

/-- What a first byte and the bytes after it begin with. -/
def utf8Front (b : UInt8) (rest : List UInt8) : Utf8Front :=
  match utf8Followers? b with
  | none => .broken 1
  | some (count, low, high) =>
    let carried := utf8Carried low high count rest
    if carried = count then .character (count + 1)
    else if carried = rest.length then .unfinished
    else .broken (carried + 1)

/-- Where bytes cease to be a text, and how many bytes are no character there, if more follow. -/
structure Utf8Break where
  index : Nat
  width : Option Nat
  deriving DecidableEq, Repr

/-- The first break of the bytes from an index on; the given number of them belongs to a character already read. -/
def utf8BreakFrom (index skip : Nat) : List UInt8 → Option Utf8Break
  | [] => none
  | b :: rest =>
    if skip ≠ 0 then utf8BreakFrom (index + 1) (skip - 1) rest
    else
      match utf8Front b rest with
      | .character width => utf8BreakFrom (index + 1) (width - 1) rest
      | .broken width => some ⟨index, some width⟩
      | .unfinished => some ⟨index, none⟩

/-- The text of a break. -/
def Utf8Break.message (b : Utf8Break) : String :=
  match b.width with
  | some width => s!"invalid utf-8 sequence of {width} bytes from index {b.index}"
  | none => s!"incomplete utf-8 byte sequence from index {b.index}"

/-- The text of bytes, or their first break. -/
def ofUtf8 (bytes : List UInt8) : Except Utf8Break String :=
  match utf8BreakFrom 0 0 bytes with
  | some b => .error b
  | none => .ok ((String.fromUTF8? ⟨bytes.toArray⟩).getD "")

/-- The text of bytes, with a replacement character for each break. -/
def ofUtf8Lossy (bytes : List UInt8) : String :=
  String.ofList (go 0 bytes)
where
  /-- The characters of the bytes, of which the first few are passed over. -/
  go (skip : Nat) : List UInt8 → List Char
    | [] => []
    | b :: rest =>
      if skip ≠ 0 then go (skip - 1) rest
      else
        match utf8Front b rest with
        | .character width =>
          ((String.fromUTF8? ⟨((b :: rest).take width).toArray⟩).getD "").toList ++ go (width - 1) rest
        | .broken width => '\uFFFD' :: go (width - 1) rest
        | .unfinished => ['\uFFFD']

end EquityScreen.Text
