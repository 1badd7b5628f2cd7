/-!
# Patterns of the store

In a pattern `%` stands for any run of characters and `_` for any one. The character after the escape stands for itself, as
every other character does; letters of ASCII match in either case. Patterns and texts end at their first NUL, and the two
code points at the end of the first plane, which are no characters, count as the replacement character there.
-/

namespace EquityScreen

/-- A part of a pattern. -/
inductive Wildcard where
  | anyRun
  | anyOne
  | exactly (c : Char)
  deriving DecidableEq, Repr

namespace Wildcard

/-- The parts of a pattern; an escape at the end is none. -/
def ofPattern? : List Char → Option (List Wildcard)
  | [] => some []
  | '%' :: rest => (ofPattern? rest).map (anyRun :: ·)
  | '_' :: rest => (ofPattern? rest).map (anyOne :: ·)
  | '\\' :: c :: rest => (ofPattern? rest).map (exactly c :: ·)
  | ['\\'] => none
  | c :: rest => (ofPattern? rest).map (exactly c :: ·)

/-- What is left of the characters after a run of any length from their front. -/
def suffixes : List Char → List (List Char)
  | [] => [[]]
  | c :: rest => (c :: rest) :: suffixes rest

/-- The parts match the whole of the characters. -/
def matchAll : List Wildcard → List Char → Bool
  | [], cs => cs.isEmpty
  | anyRun :: parts, cs => (suffixes cs).any (matchAll parts)
  | anyOne :: _, [] => false
  | anyOne :: parts, _ :: rest => matchAll parts rest
  | exactly _ :: _, [] => false
  | exactly c :: parts, d :: rest => c.toLower == d.toLower && matchAll parts rest

end Wildcard

/-- The character that a code point counts as. -/
def likeChar (c : Char) : Char :=
  if c.toNat = 0xFFFE || c.toNat = 0xFFFF then Char.ofNat 0xFFFD else c

/-- The characters that are compared: those before the first NUL. -/
def likeChars (s : String) : List Char :=
  (s.toList.takeWhile (· ≠ '\x00')).map likeChar

/-- The text matches the pattern. -/
def like (text pattern : String) : Bool :=
  match Wildcard.ofPattern? (likeChars pattern) with
  | some parts => Wildcard.matchAll parts (likeChars text)
  | none => false

end EquityScreen
