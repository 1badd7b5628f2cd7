import EquityScreen.Text.Ascii

/-!
# Media types

A media type is two names with a slash between; the second may end in a suffix after a plus. Parameters may follow, each
after a semicolon: a name, an equals sign and a value, which is a name again, nothing at the end of the text, or characters
between quotes, of which the first may be a quote itself. Blanks may stand before a parameter and after a quoted value.
-/

namespace EquityScreen.MediaType

/-- The character may stand in a name. -/
def isNameChar (c : Char) : Bool :=
  c.isAlphanum || "!#$%&'*+-.^_`|~".toList.contains c

/-- The character may stand between quotes. -/
def isQuotable (c : Char) : Bool := 0x20 ≤ c.toNat && c.toNat < 0x7F

/-- Where in the parameters the reader is. -/
inductive Place where
  /-- Before a parameter. -/
  | start
  | name
  /-- After the equals sign. -/
  | value
  /-- In a value without quotes. -/
  | bare
  /-- After the quote that begins a value. -/
  | quote
  /-- In a quoted value. -/
  | quoted
  /-- After a quoted value. -/
  | closed
  deriving DecidableEq, Repr

/-- One character of the parameters. -/
def Place.step? : Place → Char → Option Place
  | start, c => if c = ' ' then some start else if isNameChar c then some name else none
  | name, c => if c = '=' then some value else if isNameChar c then some name else none
  | value, c => if c = '"' then some quote else if isNameChar c then some bare else none
  | bare, c => if c = ';' then some start else if isNameChar c then some bare else none
  | quote, c => if isQuotable c then some quoted else none
  | quoted, c => if c = '"' then some closed else if isQuotable c then some quoted else none
  | closed, c => if c = ';' then some start else if c = ' ' then some closed else none

/-- The parameters may end here. -/
def Place.mayEnd : Place → Bool
  | start | value | bare | closed => true
  | name | quote | quoted => false

/-- The characters are parameters. -/
def areParameters (cs : List Char) : Bool :=
  (cs.foldlM Place.step? .start).any Place.mayEnd

/-- The names of a subtype: the part before the last plus, which does not stand in front, and the suffix after it. -/
def subtypeNames (cs : List Char) : List Char × Option (List Char) :=
  let suffix := (cs.reverse.takeWhile (· ≠ '+')).reverse
  let rest := cs.take (cs.length - suffix.length - 1)
  if suffix.length < cs.length && !rest.isEmpty then (rest, some suffix) else (cs, none)

/-- The media type is that of a document: `application/json`, or an application type with the suffix `+json`. -/
def isDocument (s : String) : Bool :=
  let cs := (Text.foldAscii s).toList
  let kind := cs.takeWhile (· ≠ '/')
  let tail := (cs.dropWhile (· ≠ '/')).drop 1
  let subtype := tail.takeWhile (· ≠ ';')
  let (base, suffix) := subtypeNames subtype
  kind == "application".toList && subtype.all isNameChar && areParameters ((tail.dropWhile (· ≠ ';')).drop 1) &&
    (base == "json".toList || suffix == some "json".toList)

end EquityScreen.MediaType
