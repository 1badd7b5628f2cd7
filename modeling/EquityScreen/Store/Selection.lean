import EquityScreen.Store.Like
import EquityScreen.Store.Matching
import EquityScreen.Store.Record
import EquityScreen.Store.Statement
import EquityScreen.Store.Token

/-!
# What the store makes of a statement

The store is given texts. It reads the body of a `WHERE` as clauses, all of which have to hold of a record, and the body of an
`ORDER BY` as terms, of which the first that tells two records apart counts. A clause that compares with nothing neither holds
nor fails, and a record is selected only where the clauses hold; so `!=` and `NOT IN` pass over records without a value. In an
order nothing comes before every value.
-/

namespace EquityScreen

/-! ## Truth -/

/-- What may come of a clause. -/
inductive Truth where
  | holds | fails | unknown
  deriving DecidableEq, Repr

namespace Truth

/-- The truth of an answer; where there is none, it is not known. -/
def ofAnswer : Option Bool → Truth
  | some true => holds
  | some false => fails
  | none => unknown

/-- Both of two hold. -/
def and : Truth → Truth → Truth
  | fails, _ | _, fails => fails
  | holds, holds => holds
  | _, _ => unknown

/-- One of two holds. -/
def or : Truth → Truth → Truth
  | holds, _ | _, holds => holds
  | fails, fails => fails
  | _, _ => unknown

/-- All hold. -/
def all (ts : List Truth) : Truth := ts.foldr and holds

/-- One of them holds. -/
def any (ts : List Truth) : Truth := ts.foldr or fails

end Truth

/-! ## Clauses -/

/-- One side of a comparison. -/
inductive Side where
  | column (c : Column)
  /-- The value behind a mark. -/
  | bound (v : Value)
  /-- A whole number that stands in the text. -/
  | numeral (n : Nat)

namespace Side

/-- The kind that a side asks of what is beside it: a column asks for numbers or for texts, and a value for neither. -/
def asksNumbers? : Side → Option Bool
  | column c => some c.isNumeric
  | _ => none

/-- What stands on a side for a record, beside another side. The mark of a missing number is bound as nothing. -/
def value? (r : Record) (side beside : Side) : Option StoredValue :=
  match side, beside.asksNumbers? with
  | column c, some true => (r.cell? c).map .numeric
  | column c, _ => (r.cell? c).map .ofValue
  | bound v, kind =>
    if v.isMissing then none
    else
      match kind with
      | some true => some (.numeric v)
      | some false => some (.textual v)
      | none => some (.ofValue v)
  | numeral n, some false => some (.text (toString n))
  | numeral n, _ => some (.whole n)

/-- The side that a token is. -/
def ofToken? : Token Value → Option Side
  | .word w =>
    if w.toList.all Char.isDigit then some (numeral (digitsValue 0 w.toList)) else (Column.ofName? w).map column
  | .mark v => some (bound v)
  | _ => none

end Side

/-- The relation of its signs. -/
def Relation.ofSigns? : String → Option Relation
  | ">" => some gt
  | "<" => some lt
  | ">=" => some gte
  | "<=" => some lte
  | "=" => some eq
  | "!=" => some ne
  | _ => none

/-- A clause of a `WHERE`. -/
inductive Clause where
  | compare (left : Side) (rel : Relation) (right : Side)
  | notNull (c : Column)
  | isIn (c : Column) (vs : List Value)
  | notIn (c : Column) (vs : List Value)
  /-- The text of the column in small letters against a pattern. -/
  | lowerLike (c : Column) (pattern : Value)

namespace Clause

/-! ### What a clause says -/

/-- The truth of a comparison for a record. -/
def related (r : Record) (left : Side) (rel : Relation) (right : Side) : Truth :=
  .ofAnswer do return rel.holds (← left.value? r right) (← right.value? r left)

/-- The truth of a clause for a record. -/
def truth (r : Record) : Clause → Truth
  | compare left rel right => related r left rel right
  | notNull c => .ofAnswer (some (r.cell? c).isSome)
  | isIn c vs => .any (vs.map fun v => related r (.column c) .eq (.bound v))
  | notIn c vs => .all (vs.map fun v => related r (.column c) .ne (.bound v))
  | lowerLike c pattern =>
    if pattern.isMissing then .unknown
    else .ofAnswer ((r.cell? c).map fun v => like (Text.foldAscii v.storeText) pattern.storeText)

/-- The clauses select the record. -/
def select (clauses : List Clause) (r : Record) : Bool := .all (clauses.map (truth r)) = Truth.holds

/-! ### How a clause is read -/

/-- The values of a list, up to its closing bracket. -/
def listed? : List (Token Value) → Option (List Value)
  | [.mark v, .sign ')'] => some [v]
  | .mark v :: .sign ',' :: rest => (listed? rest).map (v :: ·)
  | _ => none

/-- The clause that tokens are. -/
def ofTokens? : List (Token Value) → Option Clause
  | [left, .relation signs, right] => do
    return compare (← Side.ofToken? left) (← Relation.ofSigns? signs) (← Side.ofToken? right)
  | [.word c, .word "IS", .word "NOT", .word "NULL"] => (Column.ofName? c).map notNull
  | .word c :: .word "IN" :: .sign '(' :: values => do return isIn (← Column.ofName? c) (← listed? values)
  | .word c :: .word "NOT" :: .word "IN" :: .sign '(' :: values => do return notIn (← Column.ofName? c) (← listed? values)
  | [.word "LOWER", .sign '(', .word c, .sign ')', .word "LIKE", .mark v, .word "ESCAPE", .sign '\'', .sign '\\', .sign '\''] =>
    (Column.ofName? c).map (lowerLike · v)
  | _ => none

end Clause

/-- The clauses of a statement, if it can be read. -/
def Statement.clauses? (st : Statement) : Option (List Clause) := do
  (Token.split Token.isAnd (← Token.fill (Token.ofText st.condition) st.binds)).mapM Clause.ofTokens?

/-! ## Orders -/

/-- A term of an `ORDER BY`. -/
inductive OrderTerm where
  | isNull (c : Column)
  | ascending (c : Column)
  | descending (c : Column)

namespace OrderTerm

/-- The order of two cells: nothing before numbers, and numbers before texts. -/
def cells : Option Value → Option Value → Ordering
  | none, none => .eq
  | none, some _ => .lt
  | some _, none => .gt
  | some v, some w =>
    if Relation.lt.holds (.ofValue v) (.ofValue w) then .lt
    else if Relation.gt.holds (.ofValue v) (.ofValue w) then .gt
    else .eq

/-- The order of two records by a term. Whether a column is null is a truth, and what fails comes before what holds. -/
def compare (a b : Record) : OrderTerm → Ordering
  | isNull c => Ord.compare (a.cell? c).isNone (b.cell? c).isNone
  | ascending c => cells (a.cell? c) (b.cell? c)
  | descending c => cells (b.cell? c) (a.cell? c)

/-- The order of two records by terms, of which the first that tells them apart counts. -/
def compareAll (terms : List OrderTerm) (a b : Record) : Ordering :=
  terms.foldr (fun t o => (t.compare a b).then o) .eq

/-- The term that tokens are. -/
def ofTokens? : List (Token Unit) → Option OrderTerm
  | [.word c, .word "IS", .word "NULL"] => (Column.ofName? c).map isNull
  | [.word c, .word "ASC"] => (Column.ofName? c).map ascending
  | [.word c, .word "DESC"] => (Column.ofName? c).map descending
  | _ => none

/-- The terms of an order, if it can be read. -/
def ofText? (order : String) : Option (List OrderTerm) :=
  (Token.split Token.isComma (Token.ofText order)).mapM ofTokens?

end OrderTerm

end EquityScreen
