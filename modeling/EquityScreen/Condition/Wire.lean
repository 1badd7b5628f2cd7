import EquityScreen.Condition.Basic
import EquityScreen.Json.Reader
import EquityScreen.Json.Record
import EquityScreen.Text.Ascii

/-!
# Conditions as documents

A leaf is a record of `field`, `op` (or `operator`), `value` and `right_field`, a group one of `logic` and `children`. A
document is tried as a group first and as a leaf after that; the input of a screen is tried as one condition first and as a
list of conditions, all of which must hold, after that. The logic `or` in any case makes an any-group, every other text an
all-group.
-/

namespace EquityScreen

open Json

/-- The document of a value. -/
def Value.toJson : Value → Json
  | .number x => .real x
  | .text s => .text s

/-- The value of a document: a number or a text. -/
def Value.ofJson : Json → Read Value
  | .number n => .ok (.number n.toFloat)
  | .text s => .ok (.text s)
  | _ => .error .shape

/-- The document of a literal. -/
def Literal.toJson : Literal → Json
  | .number x => .real x
  | .text s => .text s
  | .list items => .list (toJsonAll items)
where
  toJsonAll : List Literal → List Json
    | [] => []
    | item :: rest => item.toJson :: toJsonAll rest

mutual

/-- The literal of a document: a number, a text, or a list of literals. -/
def Literal.ofJson : Json → Read Literal
  | .number n => .ok (.number n.toFloat)
  | .text s => .ok (.text s)
  | .list items => (Literal.ofItems items).map .list
  | _ => .error .shape

/-- The literals of the items of a list. -/
def Literal.ofItems : List Json → Read (List Literal)
  | [] => .ok []
  | item :: rest => do
    let first ← Literal.ofJson item
    let others ← Literal.ofItems rest
    return first :: others

end

/-- The operator of a document. -/
def Operator.ofJson (v : Json) : Read Operator := do
  match Operator.ofName? (← asName v) with
  | some op => return op
  | none => throw .shape

/-- The fields of a leaf. -/
def Leaf.names : List (List String) := [["field"], ["op", "operator"], ["value"], ["right_field"]]

/-- The leaf of a document. A field on the right wins over a literal; a null side is an absent one. -/
def Leaf.ofJson (v : Json) : Read Leaf := do
  let fs ← Json.fields Leaf.names v
  let field ← fs.required 0 asText
  let op ← fs.required 1 Operator.ofJson
  let literal ← fs.orElse 2 none (asOptional Literal.ofJson)
  let other ← fs.orElse 3 none (asOptional asText)
  match other, literal with
  | some name, _ => return .against field op name
  | none, some l => return .withLiteral field op l
  | none, none => throw (.oneSided field)

/-- The leaf of a draft. -/
def Leaf.ofDraft (d : Draft) : Read Leaf := (d.prune Leaf.names).readWhole 0 Leaf.ofJson

/-- The document of a leaf. -/
def Leaf.toJson (l : Leaf) : Json :=
  .object ([("field", .text l.field), ("op", .text l.op.symbol)] ++
    match l.right with
    | .literal v => [("value", v.toJson)]
    | .field name => [("right_field", .text name)])

/-- The logic of a document. -/
def Logic.ofJson (v : Json) : Read Logic := do
  return if Text.sameFolded (← asText v) "or" then .any else .all

/-- The name of a logic. -/
def Logic.name : Logic → String
  | .all => "AND"
  | .any => "OR"

/-- The fields of a group. -/
def Group.names : List (List String) := [["logic"], ["children"]]

namespace Condition

/-- The document of a condition. -/
def toJson : Condition → Json
  | .leaf l => l.toJson
  | .group logic children => .object [("logic", .text logic.name), ("children", .list (toJsonAll children))]
where
  toJsonAll : List Condition → List Json
    | [] => []
    | c :: rest => c.toJson :: toJsonAll rest

/-- The logic and the children of a document with the fields of a group. -/
def groupParts (v : Json) : Read (Logic × List Json) := do
  let fs ← Json.fields Group.names v
  let logic ← fs.orElse 0 .all Logic.ofJson
  match fs.get? 1 with
  | some (.list children) => return (logic, children)
  | _ => throw .shape

/-- The children of a group are smaller than the document they are read from. -/
theorem sizeOf_lt_of_groupParts {v : Json} {logic : Logic} {children : List Json} {c : Json}
    (h : groupParts v = .ok (logic, children)) (hc : c ∈ children) : sizeOf c < sizeOf v := by
  unfold groupParts at h
  cases hf : Json.fields Group.names v with
  | error e => simp [hf, bind, Except.bind] at h
  | ok fs =>
    cases hl : fs.orElse 0 .all Logic.ofJson with
    | error e => simp [hf, hl, bind, Except.bind] at h
    | ok l =>
      cases hg : fs.get? 1 with
      | none => simp [hf, hl, hg, bind, Except.bind, throw, throwThe, MonadExceptOf.throw] at h
      | some w =>
        cases w with
        | list items =>
          simp only [hf, hl, hg, bind, Except.bind, pure, Except.pure, Except.ok.injEq, Prod.mk.injEq] at h
          have hw := sizeOf_lt_of_get? hf hg
          have hi : sizeOf c < sizeOf items := List.sizeOf_lt_of_mem (h.2 ▸ hc)
          simp only [Json.list.sizeOf_spec] at hw
          omega
        | _ => simp [hf, hl, hg, bind, Except.bind, throw, throwThe, MonadExceptOf.throw] at h

/-- The condition of a document: a group whose children are all conditions, or else a leaf. -/
def ofJson (v : Json) : Read Condition :=
  let asLeaf : Read Condition :=
    match Leaf.ofJson v with
    | .ok l => .ok (.leaf l)
    | .error _ => .error .shape
  match _h : groupParts v with
  | .error _ => asLeaf
  | .ok (logic, children) =>
    match children.attach.mapM (fun ⟨c, _⟩ => ofJson c) with
    | .ok cs => .ok (.group logic cs)
    | .error _ => asLeaf
termination_by sizeOf v
decreasing_by exact sizeOf_lt_of_groupParts _h (by assumption)

/-- The condition of a screen's input: one condition, or a list of conditions that must all hold. -/
def ofInput (v : Json) : Read Condition :=
  match ofJson v with
  | .ok c => .ok c
  | .error _ =>
    match asList ofJson v with
    | .ok cs => .ok (.all cs)
    | .error _ => .error .shape

/-- The condition of the first document in a text. -/
def ofText (s : String) : Read Condition :=
  match Json.readFirst? s with
  | some v => ofInput v
  | none => .error .malformed

end Condition

end EquityScreen
