/-!
# Statements as tokens

The store reads a statement as words, relations, marks and single signs, with blanks between them. A mark stands for a value, and
the values behind the marks are given apart from the text, in the order of the marks (`Token.fill`).
-/

namespace EquityScreen

/-- A token of a statement. A mark carries a `β`: nothing as it stands in the text, and its value once there is one. -/
inductive Token (β : Type) where
  | word (w : String)
  | relation (s : String)
  | mark (m : β)
  | sign (c : Char)

namespace Token

/-! ## Reading a text -/

/-- Words are of ASCII letters, digits and the underscore. -/
def isWordChar (c : Char) : Bool := c.isAlphanum || c = '_'

/-- Relations are of these signs. -/
def isRelationChar (c : Char) : Bool := "<>=!".toList.contains c

/-- Two characters side by side are of one token. -/
def together (a b : Char) : Bool := isWordChar a && isWordChar b || isRelationChar a && isRelationChar b

/-- The token of characters that belong together; a blank is none. -/
def ofRun? : List Char → Option (Token Unit)
  | [] => none
  | c :: cs =>
    if isWordChar c then some (word (String.ofList (c :: cs)))
    else if isRelationChar c then some (relation (String.ofList (c :: cs)))
    else if c = ' ' then none
    else if c = '?' then some (mark ())
    else some (sign c)

/-- The tokens of a text. -/
def ofText (text : String) : List (Token Unit) := (text.toList.splitBy together).filterMap ofRun?

variable {β : Type}

/-- The tokens of a text with values behind its marks, the first value behind the first mark, and so on. There have to be as
many of the one as of the other. -/
def fill : List (Token Unit) → List β → Option (List (Token β))
  | [], [] => some []
  | [], _ :: _ => none
  | mark _ :: _, [] => none
  | mark _ :: ts, m :: ms => (fill ts ms).map (mark m :: ·)
  | word w :: ts, ms => (fill ts ms).map (word w :: ·)
  | relation s :: ts, ms => (fill ts ms).map (relation s :: ·)
  | sign c :: ts, ms => (fill ts ms).map (sign c :: ·)

/-! ## Parts -/

/-- The token is the word that both of two conditions have to follow. -/
def isAnd : Token β → Bool
  | word w => w == "AND"
  | _ => false

/-- The token is a comma. -/
def isComma : Token β → Bool
  | sign c => c == ','
  | _ => false

/-- The parts of tokens between those that separate them; there is always one more part than there are of these. -/
def split (separates : Token β → Bool) : List (Token β) → List (List (Token β))
  | [] => [[]]
  | t :: rest =>
    if separates t then [] :: split separates rest
    else
      match split separates rest with
      | [] => [[t]]
      | part :: more => (t :: part) :: more

end Token

end EquityScreen
