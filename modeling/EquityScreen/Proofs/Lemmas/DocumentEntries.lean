import Mathlib.Data.List.Basic
import EquityScreen.Proofs.Lemmas.Documents
import EquityScreen.Proofs.Lemmas.Predicates
import EquityScreen.Store.Document

/-!
# The entries of a filter's document

An entry of a filter's document is read as a predicate on the column that it stands under (`Predicate.ofAsked?`): a relation
with a value, a list of values, two columns, or the pattern of a text. A predicate is met where all that it asks of its column
is met as it is written, unless it has an infinite number, which is written as null (`Predicate.meets_iff_asked`).
-/

namespace EquityScreen

open Json

/-! ## Patterns of a text -/

/-- The characters with a meaning of their own in a pattern. -/
def patternSigns : List Char := "\\.+*?()|[]\x7b\x7d^$".toList

/-- The text that a pattern stands for, if every character with a meaning of its own in it is escaped. -/
def plainPattern? : List Char → Option (List Char)
  | [] => some []
  | '\\' :: c :: rest => (plainPattern? rest).map (c :: ·)
  | c :: rest => if patternSigns.contains c then none else (plainPattern? rest).map (c :: ·)

theorem toList_escapePattern (s : String) :
    (escapePattern s).toList = s.toList.flatMap fun c => if patternSigns.contains c then ['\\', c] else [c] :=
  String.toList_ofList

/-- The pattern of a text stands for the text. -/
theorem plainPattern?_escapePattern (s : String) : plainPattern? (escapePattern s).toList = some s.toList := by
  rw [toList_escapePattern]
  induction s.toList with
  | nil => rfl
  | cons c rest ih =>
    rw [List.flatMap_cons]
    by_cases hc : patternSigns.contains c = true
    · rw [if_pos hc, List.cons_append, List.singleton_append, plainPattern?, ih]
      rfl
    · have hescape : c ≠ '\\' := by
        rintro rfl
        exact hc (by decide)
      rw [if_neg hc, List.singleton_append, plainPattern?]
      · rw [if_neg hc, ih]
        rfl
      · exact fun _ _ heq => absurd heq hescape

/-! ## Values -/

namespace Value

/-- The value as its document says it: a number that is not finite is missing. -/
def asWritten : Value → Value
  | number x => number (if x.isFinite then x else notANumber)
  | text s => text s

/-- The value of an entry; null is a missing number. -/
def ofAsked? : Json → Option Value
  | .number n => some (number n.toFloat)
  | .null => some (number notANumber)
  | .text s => some (text s)
  | _ => none

theorem ofAsked?_asWritten (v : Value) : ofAsked? v.toJson.asWritten = some v.asWritten := by
  cases v with
  | text s => rfl
  | number x =>
    rw [Value.toJson, Json.real, Json.asWritten, Value.asWritten]
    split <;> rfl

/-- The values of an entry with a list. -/
def listOfAsked? : Json → Option (List Value)
  | .list items => items.mapM ofAsked?
  | _ => none

theorem listOfAsked?_asWritten (vs : List Value) :
    listOfAsked? (Json.list (vs.map Value.toJson)).asWritten = some (vs.map Value.asWritten) := by
  rw [Json.asWritten, asWrittenItems_eq_map, List.map_map]
  show (vs.map _).mapM ofAsked? = _
  induction vs with
  | nil => rfl
  | cons v rest ih =>
    rw [List.map_cons, List.mapM_cons, ih, Function.comp_apply, ofAsked?_asWritten]
    rfl

/-- A number is finite or missing. -/
def Plain : Value → Prop
  | number x => x.isFinite = true ∨ x.isNaN = true
  | text _ => True

instance : DecidablePred Plain
  | number x => inferInstanceAs (Decidable (x.isFinite = true ∨ x.isNaN = true))
  | text _ => isTrue trivial

/-- What is finite or missing is compared as it is written. -/
theorem Plain.related_written {v : Value} (hv : v.Plain) (r : Record) (c : Column) (rel : Relation) :
    r.related c rel v.asWritten = r.related c rel v := by
  cases v with
  | text s => rfl
  | number x =>
    by_cases hx : x.isFinite = true
    · rw [Value.asWritten, if_pos hx]
    · rw [Value.asWritten, if_neg hx, r.related_of_isNaN c rel (by decide), r.related_of_isNaN c rel (hv.resolve_left hx)]

theorem map_related_written {vs : List Value} (hvs : ∀ v ∈ vs, v.Plain) (r : Record) (c : Column) (rel : Relation) :
    (vs.map Value.asWritten).map (r.related c rel) = vs.map (r.related c rel) := by
  rw [List.map_map]
  exact List.map_congr_left fun v hv => (hvs v hv).related_written r c rel

end Value

/-! ## Entries as predicates -/

/-- The relation of a key. -/
def Relation.ofKey? (key : String) : Option Relation := Relation.all.find? (·.key == key)

theorem Relation.ofKey?_key (rel : Relation) : ofKey? rel.key = some rel := by cases rel <;> decide +kernel

/-- The name of a column that a text refers to. -/
def columnReference? (s : String) : Option String :=
  match s.toList with
  | '$' :: name => some (String.ofList name)
  | _ => none

theorem columnReference?_append (c : String) : columnReference? ("$" ++ c) = some c := by
  have hsplit : ("$" ++ c).toList = '$' :: c.toList := by
    rw [String.toList_append]
    rfl
  rw [columnReference?, hsplit]
  exact congrArg some String.ofList_toList

namespace Predicate

/-- The two columns that an entry compares. -/
def ofExpression? : Json → Option (Predicate String)
  | .object [(key, .list [.text c, .text d])] => do
    return compareColumns (← columnReference? c) (← Relation.ofKey? key) (← columnReference? d)
  | _ => none

/-- The search of an entry with a pattern. -/
def ofPattern? (column : String) : Json → Option (Predicate String)
  | .text s => (plainPattern? s.toList).map fun cs => contains column (String.ofList cs)
  | _ => none

/-- The predicate that an entry says of a column. -/
def ofAsked? (column key : String) (v : Json) : Option (Predicate String) :=
  if key = "$in" then (Value.listOfAsked? v).map (among column)
  else if key = "$nin" then (Value.listOfAsked? v).map (outside column)
  else if key = "$expr" then ofExpression? v
  else if key = "$regex" then ofPattern? column v
  else do return compare column (← Relation.ofKey? key) (← Value.ofAsked? v)

end Predicate

namespace Record

/-- The record matches the predicate; where it names no column of the table none does. -/
def meets (r : Record) (p : Predicate String) : Bool :=
  match p.check with
  | .ok q => r.satisfies q
  | .error _ => false

/-- The record meets an entry under a column. The entry with the options of a pattern asks for nothing by itself: a search
never looks at the case of a letter. -/
def meetsEntry (r : Record) (column key : String) (v : Json) : Bool :=
  key == "$options" || (Predicate.ofAsked? column key v).any r.meets

variable (r : Record) (c : String)

theorem meets_compare (rel : Relation) (v : Value) :
    r.meets (.compare c rel v) = (Column.ofName? c).any fun column => r.related column rel v := by
  rw [meets, Predicate.check, Column.check]
  cases Column.ofName? c <;> rfl

theorem meets_range (low high : Float) : r.meets (.range c low high) =
    (r.meets (.compare c .gte (.number low)) && r.meets (.compare c .lte (.number high))) := by
  rw [meets_compare, meets_compare, meets, Predicate.check, Column.check]
  cases Column.ofName? c <;> rfl

theorem meets_among (vs : List Value) :
    r.meets (.among c vs) = (Column.ofName? c).any fun column => vs.any (r.related column .eq) := by
  rw [meets, Predicate.check, Column.check]
  cases Column.ofName? c <;> rfl

theorem meets_outside (vs : List Value) : r.meets (.outside c vs) =
    (Column.ofName? c).any fun column => (r.cell? column).isSome && vs.all (r.related column .ne) := by
  rw [meets, Predicate.check, Column.check]
  cases Column.ofName? c <;> rfl

end Record

namespace Predicate

/-- The relation's key is none of those that ask in another way. -/
theorem ofAsked?_key (c : String) (rel : Relation) (v : Json) :
    ofAsked? c rel.key v = (Value.ofAsked? v).map (compare c rel) := by
  have hother : ∀ key ∈ ["$in", "$nin", "$expr", "$regex"], rel.key ≠ key := by cases rel <;> decide +kernel
  simp only [List.forall_mem_cons] at hother
  obtain ⟨hin, hnin, hexpr, hregex, -⟩ := hother
  rw [ofAsked?, if_neg hin, if_neg hnin, if_neg hexpr, if_neg hregex, Relation.ofKey?_key]
  cases Value.ofAsked? v <;> rfl

theorem ofExpression?_asWritten (c : String) (rel : Relation) (d : String) :
    ofExpression? (Json.object [(rel.key, .texts ["$" ++ c, "$" ++ d])]).asWritten = some (compareColumns c rel d) := by
  show (do return compareColumns (← columnReference? ("$" ++ c)) (← Relation.ofKey? rel.key) (← columnReference? ("$" ++ d))) = _
  rw [columnReference?_append, columnReference?_append, Relation.ofKey?_key]
  rfl

theorem ofPattern?_asWritten (c needle : String) :
    ofPattern? c (Json.text (escapePattern needle)).asWritten = some (contains c needle) := by
  have htext : (Json.text (escapePattern needle)).asWritten = .text (escapePattern needle) := rfl
  rw [htext, ofPattern?, plainPattern?_escapePattern, Option.map_some, String.ofList_toList]

/-- Every number of the predicate is finite or missing. -/
def Plain (p : Predicate String) : Prop := ∀ v ∈ p.binds, v.Plain

instance (p : Predicate String) : Decidable p.Plain := inferInstanceAs (Decidable (∀ v ∈ p.binds, v.Plain))

theorem meetsEntry_of_ne {key : String} (h : key ≠ "$options") (r : Record) (c : String) (v : Json) :
    r.meetsEntry c key v = (ofAsked? c key v).any r.meets := by
  rw [Record.meetsEntry, beq_eq_false_iff_ne.2 h, Bool.false_or]

theorem meetsEntry_in (r : Record) (c : String) (v : Json) :
    r.meetsEntry c "$in" v = ((Value.listOfAsked? v).map (among c)).any r.meets := by
  rw [meetsEntry_of_ne (by decide), ofAsked?, if_pos rfl]

theorem meetsEntry_nin (r : Record) (c : String) (v : Json) :
    r.meetsEntry c "$nin" v = ((Value.listOfAsked? v).map (outside c)).any r.meets := by
  rw [meetsEntry_of_ne (by decide), ofAsked?, if_neg (by decide), if_pos rfl]

theorem meetsEntry_expr (r : Record) (c : String) (v : Json) : r.meetsEntry c "$expr" v = (ofExpression? v).any r.meets := by
  rw [meetsEntry_of_ne (by decide), ofAsked?, if_neg (by decide), if_neg (by decide), if_pos rfl]

theorem meetsEntry_regex (r : Record) (c : String) (v : Json) :
    r.meetsEntry c "$regex" v = (ofPattern? c v).any r.meets := by
  rw [meetsEntry_of_ne (by decide), ofAsked?, if_neg (by decide), if_neg (by decide), if_neg (by decide), if_pos rfl]

theorem meetsEntry_options (r : Record) (c : String) (v : Json) : r.meetsEntry c "$options" v = true := by
  rw [Record.meetsEntry, beq_self_eq_true, Bool.true_or]

theorem meetsEntry_asWritten (r : Record) (c : String) (rel : Relation) (v : Value) :
    r.meetsEntry c rel.key v.toJson.asWritten = r.meets (.compare c rel v.asWritten) := by
  have hoptions : rel.key ≠ "$options" := by cases rel <;> decide +kernel
  rw [meetsEntry_of_ne hoptions, ofAsked?_key, Value.ofAsked?_asWritten, Option.map_some, Option.any_some]

/-- A relation with a value is met as it is written. -/
theorem meetsEntry_key (r : Record) (c : String) (rel : Relation) {v : Value} (hv : v.Plain) :
    r.meetsEntry c rel.key v.toJson.asWritten = r.meets (.compare c rel v) := by
  rw [meetsEntry_asWritten, Record.meets_compare, Record.meets_compare]
  simp only [hv.related_written]

/-- A relation with a number that is not finite is written with null, and nothing meets it. -/
theorem meetsEntry_of_not_finite (r : Record) (c : String) (rel : Relation) {x : Float} (hx : x.isFinite = false) :
    r.meetsEntry c rel.key (Json.real x).asWritten = false := by
  show r.meetsEntry c rel.key (Value.number x).toJson.asWritten = false
  rw [meetsEntry_asWritten, Record.meets_compare, Value.asWritten, if_neg (Bool.eq_false_iff.1 hx)]
  simp only [r.related_of_isNaN _ rel (by decide : notANumber.isNaN = true)]
  cases Column.ofName? c <;> rfl

/-- A predicate is met where all that it asks of its column is met as it is written. -/
theorem meets_iff_asked {p : Predicate String} (hp : p.Plain) (r : Record) :
    r.meets p = true ↔ ∀ e ∈ p.asked, r.meetsEntry p.column e.1 e.2.asWritten = true := by
  cases p with
  | compare c rel v =>
    rw [asked, List.forall_mem_singleton]
    show _ ↔ r.meetsEntry c rel.key v.toJson.asWritten = true
    rw [meetsEntry_key r c rel (hp v (by simp [binds]))]
  | compareColumns c rel d =>
    rw [asked, List.forall_mem_singleton]
    show _ ↔ r.meetsEntry c "$expr" _ = true
    rw [meetsEntry_expr, ofExpression?_asWritten, Option.any_some]
  | range c low high =>
    rw [asked, List.forall_mem_cons, List.forall_mem_singleton, Record.meets_range, Bool.and_eq_true]
    show _ ↔ r.meetsEntry c Relation.gte.key (Value.number low).toJson.asWritten = true ∧
      r.meetsEntry c Relation.lte.key (Value.number high).toJson.asWritten = true
    rw [meetsEntry_key r c .gte (hp (.number low) (by simp [binds])),
      meetsEntry_key r c .lte (hp (.number high) (by simp [binds]))]
  | among c vs =>
    have hvs : ∀ v ∈ vs, v.Plain := hp
    have hvalues : ∀ column, (vs.map Value.asWritten).any (r.related column .eq) = vs.any (r.related column .eq) := by
      intro column
      show (vs.map Value.asWritten).any (id ∘ r.related column .eq) = vs.any (id ∘ r.related column .eq)
      rw [← List.any_map, ← List.any_map, Value.map_related_written hvs]
    rw [asked, List.forall_mem_singleton]
    show _ ↔ r.meetsEntry c "$in" _ = true
    rw [meetsEntry_in, Value.listOfAsked?_asWritten, Option.map_some, Option.any_some, Record.meets_among, Record.meets_among]
    simp only [hvalues]
  | outside c vs =>
    have hvs : ∀ v ∈ vs, v.Plain := hp
    have hvalues : ∀ column, (vs.map Value.asWritten).all (r.related column .ne) = vs.all (r.related column .ne) := by
      intro column
      show (vs.map Value.asWritten).all (id ∘ r.related column .ne) = vs.all (id ∘ r.related column .ne)
      rw [← List.all_map, ← List.all_map, Value.map_related_written hvs]
    rw [asked, List.forall_mem_singleton]
    show _ ↔ r.meetsEntry c "$nin" _ = true
    rw [meetsEntry_nin, Value.listOfAsked?_asWritten, Option.map_some, Option.any_some, Record.meets_outside,
      Record.meets_outside]
    simp only [hvalues]
  | contains c needle =>
    rw [asked, List.forall_mem_cons, List.forall_mem_singleton]
    show _ ↔ r.meetsEntry c "$options" _ = true ∧ r.meetsEntry c "$regex" _ = true
    rw [meetsEntry_options, meetsEntry_regex, ofPattern?_asWritten, Option.any_some]
    exact ⟨fun h => ⟨rfl, h⟩, fun h => h.2⟩

end Predicate

end EquityScreen
