import EquityScreen.Json.Record
import EquityScreen.Json.Writer
import EquityScreen.Proofs.Lemmas.Answers
import EquityScreen.Proofs.Lemmas.WholeNumbers

/-!
# Documents and their parts

A document has whole numbers of 64 bits and finite doubles only (`Json.InRange`), and so have its parts, of which what a record
gives for a field is one (`mem_parts_of_get?`). What is made of values may have other numbers; they are written as null, so it is
written as the document that has null in their places (`compact_asWritten`).
-/

namespace EquityScreen
namespace Json

/-! ## Numbers in range -/

/-- The number is one that a document can have: a whole number of 64 bits, or a finite double. -/
def Number.InRange : Number → Prop
  | .whole n | .negative n => n < 2 ^ 64
  | .real x => x.isFinite = true

/-- A number that a document can have is finite as a double. -/
theorem Number.InRange.isFinite {n : Number} (h : n.InRange) : n.toFloat.isFinite = true := by
  cases n with
  | whole n => exact isFinite_ofNat h
  | negative n => exact isFinite_neg (isFinite_ofNat h)
  | real x => exact h

/-- Every number of the document is one that a document can have. -/
inductive InRange : Json → Prop where
  | null : InRange .null
  | bool (b : Bool) : InRange (.bool b)
  | number {n : Number} (h : n.InRange) : InRange (.number n)
  | text (s : String) : InRange (.text s)
  | list {items : List Json} (h : ∀ v ∈ items, InRange v) : InRange (.list items)
  | object {members : List (String × Json)} (h : ∀ m ∈ members, InRange m.2) : InRange (.object members)

/-- The items of a list, or the values of the members of an object. -/
def parts : Json → List Json
  | .list items => items
  | .object members => members.map (·.2)
  | _ => []

/-- The parts of a document in range are in range. -/
theorem InRange.of_mem_parts {v w : Json} (hv : v.InRange) (hw : w ∈ v.parts) : w.InRange := by
  cases hv with
  | list h => exact h w hw
  | object h =>
    obtain ⟨m, hm, rfl⟩ := List.mem_map.1 hw
    exact h m hm
  | _ => exact absurd hw List.not_mem_nil

/-- What a document gives for a field of a record is a part of it. -/
theorem mem_parts_of_get? {names : List (List String)} {v w : Json} {fs : Fields} {i : Nat}
    (hfs : fields names v = .ok fs) (hw : fs.get? i = some w) : w ∈ v.parts := by
  obtain ⟨p, hfind, rfl⟩ := Option.map_eq_some_iff.1 hw
  have hp : p ∈ fs.given := List.mem_of_find?_eq_some hfind
  cases v with
  | object members =>
    obtain ⟨given, hgiven, rfl⟩ := map_eq_ok hfs
    obtain ⟨name, hname⟩ := mem_of_mem_givenMembers hgiven hp
    exact List.mem_map.2 ⟨(name, p.2), hname, rfl⟩
  | list items =>
    rw [fields] at hfs
    split at hfs
    · obtain rfl := Except.ok.inj hfs
      exact (List.of_mem_zip hp).2
    · exact absurd hfs (by simp)
  | _ => exact absurd hfs (by simp [fields])

/-! ## What is written -/

mutual

/-- The document that a document is written as: a number that is missing or infinite is null. -/
def asWritten : Json → Json
  | .number (.real x) => if x.isFinite then .real x else .null
  | .list items => .list (asWrittenItems items)
  | .object members => .object (asWrittenMembers members)
  | v => v

/-- The items of a list as they are written. -/
def asWrittenItems : List Json → List Json
  | [] => []
  | item :: rest => asWritten item :: asWrittenItems rest

/-- The members of an object as they are written. -/
def asWrittenMembers : List (String × Json) → List (String × Json)
  | [] => []
  | (name, value) :: rest => (name, asWritten value) :: asWrittenMembers rest

end

theorem asWrittenItems_eq_map (items : List Json) : asWrittenItems items = items.map asWritten := by
  induction items with
  | nil => rfl
  | cons item rest ih => rw [asWrittenItems, ih, List.map_cons]

theorem asWrittenMembers_eq_map (members : List (String × Json)) :
    asWrittenMembers members = members.map fun m => (m.1, m.2.asWritten) := by
  induction members with
  | nil => rfl
  | cons m rest ih => rw [asWrittenMembers, ih, List.map_cons]

/-- A document in range is written as it is. -/
theorem InRange.asWritten_eq {v : Json} (hv : v.InRange) : v.asWritten = v := by
  induction hv with
  | null | bool b | text s => rfl
  | @number n h =>
    cases n with
    | real x => exact if_pos h
    | whole n | negative n => rfl
  | list h ih => rw [asWritten, asWrittenItems_eq_map, List.map_congr_left ih, List.map_id']
  | object h ih =>
    rename_i members
    have hmembers : members.map (fun m => (m.1, m.2.asWritten)) = members.map id :=
      List.map_congr_left fun m hm => by rw [ih m hm, id]
    rw [asWritten, asWrittenMembers_eq_map, hmembers, List.map_id]

mutual

/-- A document is written like the document that it is written as. -/
theorem compact_asWritten : ∀ v : Json, v.asWritten.compact = v.compact
  | .null | .bool _ | .text _ | .number (.whole _) | .number (.negative _) => rfl
  | .number (.real x) => by
    rw [asWritten, compact, Number.write]
    split
    · rename_i h
      exact if_pos h
    · rfl
  | .list items => by rw [asWritten, compact, compact, compactItems_asWritten items]
  | .object members => by rw [asWritten, compact, compact, compactMembers_asWritten members]

theorem compactItems_asWritten : ∀ items : List Json, compactItems (asWrittenItems items) = compactItems items
  | [] => rfl
  | [item] => compact_asWritten item
  | item :: next :: rest => by
    have hrest := compactItems_asWritten (next :: rest)
    show compact item.asWritten ++ "," ++ compactItems (asWrittenItems (next :: rest)) =
      compact item ++ "," ++ compactItems (next :: rest)
    rw [compact_asWritten item, hrest]

theorem compactMembers_asWritten : ∀ members : List (String × Json),
    compactMembers (asWrittenMembers members) = compactMembers members
  | [] => rfl
  | [(name, value)] => congrArg (quote name ++ ":" ++ ·) (compact_asWritten value)
  | (name, value) :: next :: rest => by
    have hrest := compactMembers_asWritten (next :: rest)
    show quote name ++ ":" ++ compact value.asWritten ++ "," ++ compactMembers (asWrittenMembers (next :: rest)) =
      quote name ++ ":" ++ compact value ++ "," ++ compactMembers (next :: rest)
    rw [compact_asWritten value, hrest]

end

end Json
end EquityScreen
