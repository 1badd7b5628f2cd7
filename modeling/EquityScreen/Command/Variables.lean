import EquityScreen.Named
import EquityScreen.Text.Alphanumeric
import EquityScreen.Text.Blank

/-!
# Variables of a file

A file of variables has one on each line, `NAME=value`, perhaps after the word `export`. Blank lines and lines that begin
with `#` say nothing. A value may be quoted: between single quotes every character stands for itself, between double quotes
and outside quotes a backslash escapes and `$NAME` stands for the value of another variable. Outside quotes a value ends at
the first blank, after which a comment may follow. A line whose quotes are open goes on in the next one. Lines are read up to
the first that is not like this.

What is a quote is decided once to find the end of a line, and again to read the value: there only a comment that follows the
first blank is known as one, so a quote in any other comment lets the line go on, and a text that ends behind a blank or a
backslash ends in an unfinished line, which says nothing.
-/

namespace EquityScreen.Variables

/-- Where in a value the reader is. -/
inductive Place where
  | plain
  | single
  | double
  /-- After a backslash, inside double quotes or not. -/
  | escaped (quoted : Bool)
  /-- In the name after a `$`, inside double quotes or not. -/
  | name (quoted : Bool) (sofar : List Char)
  /-- In the name between braces after a `$`. -/
  | braced (quoted : Bool) (sofar : List Char)
  /-- After the blank that ends a value. -/
  | after

/-- What a backslash and the character make. -/
def unescape : Char → Option Char
  | 'n' => some '\n'
  | c => if ['\\', '\'', '"', '$', ' '].contains c then some c else none

/-- The value of the variable named by the characters, which are given newest first. -/
def substitute (lookup : String → Option String) (name : List Char) : List Char :=
  ((lookup (String.ofList name.reverse)).getD "").toList

/-- The place after a character of a value outside a name, and what the character adds to the value. -/
def step (quoted : Bool) (c : Char) : Place × List Char :=
  if c = '$' then (.name quoted [], [])
  else if quoted then
    if c = '"' then (.plain, []) else if c = '\\' then (.escaped true, []) else (.double, [c])
  else if c = '\'' then (.single, [])
  else if c = '"' then (.double, [])
  else if c = '\\' then (.escaped false, [])
  else if c = ' ' ∨ c = '\t' then (.after, [])
  else (.plain, [c])

/-- The place of a value that goes on. -/
def Place.within (quoted : Bool) : Place := if quoted then .double else .plain

/-- The rest of a value from a place on. -/
def value (lookup : String → Option String) : Place → List Char → Option (List Char)
  | .plain, [] => some []
  | .after, [] => some []
  | .escaped false, [] => some []
  | .name false sofar, [] => some (substitute lookup sofar)
  | _, [] => none
  | .after, c :: rest =>
    if c = ' ' ∨ c = '\t' then value lookup .after rest else if c = '#' then some [] else none
  | .escaped quoted, c :: rest => do
    let d ← unescape c
    return d :: (← value lookup (.within quoted) rest)
  | .single, c :: rest =>
    if c = '\'' then value lookup .plain rest else (value lookup .single rest).map (c :: ·)
  | .name quoted sofar, c :: rest =>
    if Text.isAlphanumeric c then value lookup (.name quoted (c :: sofar)) rest
    else if c = '\x7b' ∧ sofar.isEmpty then value lookup (.braced quoted []) rest
    else if c = '$' then (value lookup (.name quoted []) rest).map (substitute lookup sofar ++ ·)
    else (value lookup (.within quoted) rest).map (substitute lookup sofar ++ c :: ·)
  | .braced quoted sofar, c :: rest =>
    if c = '\x7d' then (value lookup (.within quoted) rest).map (substitute lookup sofar ++ ·)
    else value lookup (.braced quoted (c :: sofar)) rest
  | .plain, c :: rest =>
    let (place, added) := step false c
    (value lookup place rest).map (added ++ ·)
  | .double, c :: rest =>
    let (place, added) := step true c
    (value lookup place rest).map (added ++ ·)

/-- The name of a variable in front, and what follows it. -/
def takeName (cs : List Char) : Option (String × List Char) :=
  let inName (c : Char) : Bool := c.isAlphanum || c = '_' || c = '.'
  match cs with
  | c :: _ =>
    if c.isAlpha || c = '_' then some (String.ofList (cs.takeWhile inName), Text.trimLeft (cs.dropWhile inName)) else none
  | [] => none

/-- The characters after an equals sign. -/
def takeEquals : List Char → Option (List Char)
  | '=' :: rest => some (Text.trimLeft rest)
  | _ => none

/-- The name of the variable of a line, and the characters of its value. -/
def takeVariable (cs : List Char) : Option (String × List Char) := do
  let (name, rest) ← takeName cs
  match name, takeEquals rest with
  | _, some value => return (name, value)
  | "export", none =>
    let (name, rest) ← takeName rest
    return (name, ← takeEquals rest)
  | _, none => none

/-- The variables of lines, up to the first line that is none. A variable of the surroundings, and one of an earlier line,
comes before one of the file. -/
def ofLines (outer : String → Option String) (found : Named String) : List (List Char) → Named String
  | [] => found
  | line :: rest =>
    let cs := Text.trim line
    if cs.isEmpty || cs.head? == some '#' then ofLines outer found rest
    else
      let lookup (name : String) : Option String := (outer name).orElse fun _ => found.get? name
      match takeVariable cs with
      | none => found
      | some (name, cs) =>
        match if cs.head? == some '#' then some [] else value lookup .plain cs with
        | none => found
        | some v => ofLines outer (if found.contains name then found else found.insert name (String.ofList v)) rest

/-- Where in a line the search for its end is. -/
inductive LineState where
  | plain
  /-- After a blank outside quotes. -/
  | blank
  | single
  | double
  /-- After a backslash; the state comes back after the next character. -/
  | escaped (back : LineState)
  deriving DecidableEq, Repr

namespace LineState

/-- The state after a character outside quotes. -/
def outside (c : Char) : LineState :=
  if c = '\\' then escaped .plain else if c = '"' then double else if c = '\'' then single else .plain

/-- The state after a character. -/
def step : LineState → Char → LineState
  | .plain, c => if Text.isBlank c && c ≠ '\n' && c ≠ '\r' then blank else outside c
  | blank, c => outside c
  | single, c => if c = '\\' then escaped single else if c = '\'' then .plain else single
  | double, c => if c = '\\' then escaped double else if c = '"' then .plain else double
  | escaped back, _ => back

/-- The state after characters, and those of them that stand before a comment. -/
def through (s : LineState) : List Char → LineState × List Char
  | [] => (s, [])
  | c :: rest =>
    if s = blank ∧ c = '#' then (.plain, [])
    else
      let (last, kept) := (s.step c).through rest
      (last, c :: kept)

end LineState

/-- The line begins with the sign of a comment. -/
def isComment (line : List Char) : Bool := (Text.trimLeft line).head? == some '#'

/-- The lines of a file, each with those that its quotes let it go on in; an unfinished line is none, nor are comments. All
but the last of the given lines end in a line feed. -/
def joinLines (s : LineState) (sofar : List Char) : List (List Char) → List (List Char)
  | [] => []
  | line :: rest =>
    if s = .plain ∧ isComment line then joinLines .plain [] rest
    else
      let (last, kept) := s.through (if rest.isEmpty then line else line ++ ['\n'])
      if last = .plain then (sofar ++ kept) :: joinLines .plain [] rest else joinLines last (sofar ++ kept) rest

/-- The text without the mark that may stand in front of it. -/
def withoutMark : List Char → List Char
  | c :: rest => if c.toNat = 0xFEFF then rest else c :: rest
  | [] => []

/-- The variables of a file among those of the surroundings. -/
def ofText (outer : String → Option String) (text : String) : Named String :=
  let lines := ((String.ofList (withoutMark text.toList)).splitOn "\n").map String.toList
  ofLines outer .empty (joinLines .plain [] lines)

/-- The names that may stand after a `$` in a text, in braces or not. -/
def mentioned : List Char → List String
  | [] => []
  | '$' :: rest =>
    String.ofList (rest.takeWhile Text.isAlphanumeric) :: String.ofList ((rest.drop 1).takeWhile (· ≠ '\x7d')) ::
      mentioned rest
  | _ :: rest => mentioned rest

end EquityScreen.Variables
