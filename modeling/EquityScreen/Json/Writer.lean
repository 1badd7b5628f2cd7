import EquityScreen.Json.Value
import EquityScreen.Decimal.Layout

/-!
# Writing documents

`Json.compact` writes a document on one line without blanks, `Json.indented` over several lines with two blanks per level.
Members are written in their order. A number that is missing or infinite is written as null. In a text the quote, the
backslash and the control characters are escaped; every other character stands as it is.
-/

namespace EquityScreen.Json

/-- Four hexadecimal digits. -/
def fourHex (n : Nat) : String :=
  let digits := String.ofList (Nat.toDigits 16 n)
  zeros (4 - digits.length) ++ digits

/-- A character inside a text. -/
def escapeChar (c : Char) : String :=
  if c = '"' then "\\\""
  else if c = '\\' then "\\\\"
  else if c = '\n' then "\\n"
  else if c = '\r' then "\\r"
  else if c = '\t' then "\\t"
  else if c = '\x08' then "\\b"
  else if c = '\x0c' then "\\f"
  else if c.toNat < 0x20 then "\\u" ++ fourHex c.toNat
  else c.toString

/-- A text with its quotes. -/
def quote (s : String) : String :=
  "\"" ++ s.foldl (fun out c => out ++ escapeChar c) "" ++ "\""

/-- A number; what no document can hold is null. -/
def Number.write : Number → String
  | .whole n => toString n
  | .negative n => "-" ++ toString n
  | .real x => if x.isFinite then Layout.json.finite x else "null"

mutual

/-- The document on one line. -/
def compact : Json → String
  | .null => "null"
  | .bool b => if b then "true" else "false"
  | .number n => n.write
  | .text s => quote s
  | .list items => "[" ++ compactItems items ++ "]"
  | .object members => "\x7b" ++ compactMembers members ++ "\x7d"

/-- The items of a list with commas between them. -/
def compactItems : List Json → String
  | [] => ""
  | [item] => compact item
  | item :: rest => compact item ++ "," ++ compactItems rest

/-- The members of an object with commas between them. -/
def compactMembers : List (String × Json) → String
  | [] => ""
  | [(name, value)] => quote name ++ ":" ++ compact value
  | (name, value) :: rest => quote name ++ ":" ++ compact value ++ "," ++ compactMembers rest

end

/-- A new line with its indentation. -/
def newline (level : Nat) : String :=
  "\n" ++ String.ofList (List.replicate (2 * level) ' ')

mutual

/-- The document over several lines, `level` deep. -/
def indentedAt (level : Nat) : Json → String
  | .list [] => "[]"
  | .object [] => "\x7b\x7d"
  | .list items => "[" ++ indentedItems (level + 1) items ++ newline level ++ "]"
  | .object members => "\x7b" ++ indentedMembers (level + 1) members ++ newline level ++ "\x7d"
  | .null => "null"
  | .bool b => if b then "true" else "false"
  | .number n => n.write
  | .text s => quote s

/-- The items of a list, each on lines of its own. -/
def indentedItems (level : Nat) : List Json → String
  | [] => ""
  | [item] => newline level ++ indentedAt level item
  | item :: rest => newline level ++ indentedAt level item ++ "," ++ indentedItems level rest

/-- The members of an object, each on lines of its own. -/
def indentedMembers (level : Nat) : List (String × Json) → String
  | [] => ""
  | [(name, value)] => newline level ++ quote name ++ ": " ++ indentedAt level value
  | (name, value) :: rest =>
    newline level ++ quote name ++ ": " ++ indentedAt level value ++ "," ++ indentedMembers level rest

end

/-- The document over several lines. -/
def indented (v : Json) : String := indentedAt 0 v

end EquityScreen.Json
