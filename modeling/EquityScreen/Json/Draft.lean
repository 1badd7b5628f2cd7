import EquityScreen.Json.Token

/-!
# Drafts

A draft is a document as far as its text can be read. It may break off, and it may hold numbers and texts that have no value
because no double or no text holds them. What it is good for depends on the reader: a reader that takes a value as a whole
asks for all of it (`Draft.whole?`), one that passes over a value asks only that it is finished (`Draft.isFinished`), and one
that finds what it does not want stops there and never sees that the text breaks off behind it.

The draft of a text is read with a stack of the lists and objects that are open and what may come next, one token at a time,
until the outermost value is finished. A text that breaks off leaves everything that is open unfinished.
-/

namespace EquityScreen.Json

/-- A document as far as its text can be read. -/
inductive Draft where
  | null
  | bool (b : Bool)
  | number (n : Number)
  | text (s : String)
  /-- A number or a text without a value. -/
  | unreadable
  | list (items : List Draft) (finished : Bool)
  /-- The members of an object, `none` standing for a name without a value. -/
  | object (members : List (Option String × Draft)) (finished : Bool)
  /-- No value starts here. -/
  | broken

namespace Draft

/-- The value is written to its end. -/
def isFinished : Draft → Bool
  | list _ finished | object _ finished => finished
  | broken => false
  | _ => true

mutual

/-- The document, if all of it can be read and it nests no deeper than so many lists and objects. -/
def whole? (room : Nat) : Draft → Option Json
  | null => some .null
  | bool b => some (.bool b)
  | number n => some (.number n)
  | text s => some (.text s)
  | list items true => if room = 0 then none else (wholeItems? (room - 1) items).map .list
  | object members true => if room = 0 then none else (wholeMembers? (room - 1) members).map .object
  | _ => none

/-- The documents of the items of a list. -/
def wholeItems? (room : Nat) : List Draft → Option (List Json)
  | [] => some []
  | d :: rest => do
    let v ← whole? room d
    return v :: (← wholeItems? room rest)

/-- The members of an object, with their documents. -/
def wholeMembers? (room : Nat) : List (Option String × Draft) → Option (List (String × Json))
  | [] => some []
  | (name, d) :: rest => do
    let v ← whole? room d
    return (← name, v) :: (← wholeMembers? room rest)

end

mutual

/-- The draft of a document: all of it. -/
def ofJson : Json → Draft
  | .null => null
  | .bool b => bool b
  | .number n => number n
  | .text s => text s
  | .list items => list (ofItems items) true
  | .object members => object (ofMembers members) true

/-- The drafts of the items of a list. -/
def ofItems : List Json → List Draft
  | [] => []
  | v :: rest => ofJson v :: ofItems rest

/-- The members of an object, with their drafts. -/
def ofMembers : List (String × Json) → List (Option String × Draft)
  | [] => []
  | (name, v) :: rest => (some name, ofJson v) :: ofMembers rest

end

/-- A list or an object that is open, its finished parts newest first, and for an object the name whose value is being
read. -/
inductive Frame where
  | list (done : List Draft)
  | object (done : List (Option String × Draft)) (name : Option String)

/-- What may come next. -/
inductive Awaits where
  /-- A value. -/
  | value
  /-- A value, or the end of the list just opened. -/
  | firstItem
  /-- A name, or the end of the object just opened. -/
  | firstName
  /-- A name. -/
  | name (done : List (Option String × Draft))
  /-- The colon after a name. -/
  | colon (done : List (Option String × Draft)) (name : Option String)
  /-- A comma or the end of the innermost list or object, which has just received a value. -/
  | separator

/-- Where the reader goes with a token. -/
inductive Step where
  | more (awaits : Awaits) (frames : List Frame)
  | done (d : Draft)
  | fail

/-- A value that is finished: into the innermost open frame, or out with it. -/
def Step.complete (d : Draft) : List Frame → Step
  | [] => .done d
  | .list items :: rest => .more .separator (.list (d :: items) :: rest)
  | .object members name :: rest => .more .separator (.object ((name, d) :: members) none :: rest)

/-- The token where a value must start. -/
def Step.value (frames : List Frame) : Token → Step
  | .null => complete .null frames
  | .bool b => complete (.bool b) frames
  | .number n => complete (.number n) frames
  | .text s => complete (.text s) frames
  | .oversized | .halved => complete .unreadable frames
  | .openList => .more .firstItem (.list [] :: frames)
  | .openObject => .more .firstName frames
  | _ => .fail

/-- The token where a name must stand. -/
def Step.name (done : List (Option String × Draft)) (frames : List Frame) : Token → Step
  | .text s => .more (.colon done (some s)) frames
  | .halved => .more (.colon done none) frames
  | _ => .fail

/-- One token. -/
def Step.next (frames : List Frame) : Awaits → Token → Step
  | .value, t => value frames t
  | .firstItem, t =>
    match t, frames with
    | .closeList, .list _ :: rest => complete (.list [] true) rest
    | _, _ => value frames t
  | .firstName, t =>
    match t with
    | .closeObject => complete (.object [] true) frames
    | t => name [] frames t
  | .name members, t => name members frames t
  | .colon members name, t =>
    match t with
    | .colon => .more .value (.object members name :: frames)
    | _ => .fail
  | .separator, t =>
    match t, frames with
    | .comma, .list items :: rest => .more .value (.list items :: rest)
    | .comma, .object members _ :: rest => .more (.name members) rest
    | .closeList, .list items :: rest => complete (.list items.reverse true) rest
    | .closeObject, .object members _ :: rest => complete (.object members.reverse true) rest
    | _, _ => .fail

/-- A draft inside open frames, none of which will be finished. -/
def unfinishedIn (d : Draft) : List Frame → Draft
  | [] => d
  | .list items :: rest => unfinishedIn (list (d :: items).reverse false) rest
  | .object members name :: rest => unfinishedIn (object ((name, d) :: members).reverse false) rest

/-- The draft of a text that breaks off with frames open. -/
def breakOff (frames : List Frame) : Awaits → Draft
  | .firstName => unfinishedIn (object [] false) frames
  | .name members => unfinishedIn (object members.reverse false) frames
  | .colon members name => unfinishedIn (object ((name, broken) :: members).reverse false) frames
  | .value | .firstItem =>
    match frames with
    | [] => broken
    | .list items :: rest => unfinishedIn (list items.reverse false) rest
    | .object members name :: rest => unfinishedIn (object ((name, broken) :: members).reverse false) rest
  | .separator =>
    match frames with
    | [] => broken
    | .list items :: rest => unfinishedIn (list items.reverse false) rest
    | .object members _ :: rest => unfinishedIn (object members.reverse false) rest

/-- The first draft of the tokens, and the tokens after it. -/
def ofTokens (awaits : Awaits) (frames : List Frame) : List Token → Draft × List Token
  | [] => (breakOff frames awaits, [])
  | t :: rest =>
    match Step.next frames awaits t with
    | .done d => (d, rest)
    | .more a f => ofTokens a f rest
    | .fail => (breakOff frames awaits, [])

/-- The draft that a text begins with, and the tokens after it. -/
def ofText (s : String) : Draft × List Token :=
  ofTokens .value [] (Scan.between.tokens s.toList)

end Draft

end EquityScreen.Json
