import EquityScreen.Text.Invisible

/-!
# Text quoted in a message

A text that a message quotes stands between double quotes. The quote, the backslash, a line feed, a carriage return, a tab
and the null character have short escapes; any other character without a printed form of its own is written by its number in
hexadecimal.
-/

namespace EquityScreen.Text

/-- The character inside a quoted text. -/
def quotedChar (c : Char) : String :=
  if c = '"' then "\\\""
  else if c = '\\' then "\\\\"
  else if c = '\n' then "\\n"
  else if c = '\r' then "\\r"
  else if c = '\t' then "\\t"
  else if c = '\x00' then "\\0"
  else if isInvisible c then "\\u\x7b" ++ String.ofList (Nat.toDigits 16 c.toNat) ++ "\x7d"
  else c.toString

/-- The text between quotes. -/
def quoted (s : String) : String :=
  "\"" ++ s.foldl (fun out c => out ++ quotedChar c) "" ++ "\""

/-- A list of quoted texts between brackets. -/
def quotedList (ss : List String) : String :=
  "[" ++ ", ".intercalate (ss.map quoted) ++ "]"

end EquityScreen.Text
