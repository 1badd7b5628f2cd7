/-!
# Text compared with ASCII letters folded

Every case-blind comparison of the screener (a substring search, a sort direction, a market named `all`) folds the
twenty-six ASCII letters and nothing else: `Ärzte` and `ärzte` stay different. Search is over characters, which for valid
text agrees with search over its bytes.
-/

namespace EquityScreen.Text

/-- The text with ASCII capitals made small; every other character stays. -/
def foldAscii (s : String) : String :=
  String.ofList (s.toList.map Char.toLower)

/-- Two texts agree once their ASCII letters are folded. -/
def sameFolded (a b : String) : Bool :=
  foldAscii a == foldAscii b

/-- The needle starts at some position of the haystack. The empty needle is in every text. -/
def holdsChars (needle : List Char) : List Char → Bool
  | [] => needle.isEmpty
  | c :: rest => needle.isPrefixOf (c :: rest) || holdsChars needle rest

/-- The haystack contains the needle as a run of consecutive characters. -/
def holds (haystack needle : String) : Bool :=
  holdsChars needle.toList haystack.toList

/-- The haystack contains the needle once ASCII letters are folded on both sides. -/
def holdsFolded (haystack needle : String) : Bool :=
  holds (foldAscii haystack) (foldAscii needle)

/-- The texts with a separator between each two neighbours. -/
def join (separator : String) (parts : List String) : String :=
  separator.intercalate parts

end EquityScreen.Text
