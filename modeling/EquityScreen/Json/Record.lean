import EquityScreen.Json.Value

/-!
# Records read from documents

A record is written as an object or as a list. In an object a field may answer to several names, names that belong to no
field are ignored, and a field may be given once only, under whichever of its names. In a list the values stand in the order
of the record's fields, and there are no more values than fields. A field that is missing takes its default where the record
has one for it.

`Fault` says why a document is refused. All faults of shape are one, as are those of the text itself; the rules that have a
text of their own are causes by themselves.
-/

namespace EquityScreen

/-- Why a document is refused. -/
inductive Fault where
  /-- The text is no document as far as it had to be read. -/
  | malformed
  /-- The document does not have the shape asked for. -/
  | shape
  /-- A comparison on the field has neither a literal nor a field on its right. -/
  | oneSided (field : String)
  /-- A sort direction is neither `asc` nor `desc`; the text is kept with its ASCII letters small. -/
  | direction (given : String)
  deriving DecidableEq, Repr, Inhabited

/-- The text of a fault that has one. -/
def Fault.message : Fault → Option String
  | .malformed | .shape => none
  | .oneSided field => some s!"condition on '{field}' needs a value or a right_field"
  | .direction given => some s!"sort direction must be asc or desc, got '{given}'"

/-- What reading a part of a document gives. -/
abbrev Read (α : Type) := Except Fault α

namespace Json

/-- How a record is written. -/
inductive Form where
  | keyed | positional
  deriving DecidableEq, Repr

/-- The fields a document gives, by number, in the order the document has them. -/
structure Fields where
  form : Form
  given : List (Nat × Json)

/-- The number of the field that answers to the name. -/
def fieldIndex (fields : List (List String)) (name : String) : Option Nat :=
  fields.findIdx? (·.contains name)

/-- The fields given by the members of an object: members of no field are left out, a repeated field is a fault. -/
def givenMembers (fields : List (List String)) : List (String × Json) → List Nat → Read (List (Nat × Json))
  | [], _ => .ok []
  | (name, value) :: rest, seen =>
    match fieldIndex fields name with
    | none => givenMembers fields rest seen
    | some i =>
      if seen.contains i then .error .shape
      else (givenMembers fields rest (i :: seen)).map ((i, value) :: ·)

/-- The fields of a record, each with the names it answers to, as a document gives them. -/
def fields (names : List (List String)) : Json → Read Fields
  | .object members => (givenMembers names members []).map (⟨.keyed, ·⟩)
  | .list items =>
    if items.length ≤ names.length then .ok ⟨.positional, (List.range items.length).zip items⟩ else .error .shape
  | _ => .error .shape

/-- The value given for a field. -/
def Fields.get? (fs : Fields) (i : Nat) : Option Json :=
  (fs.given.find? (·.1 == i)).map (·.2)

/-- A member's value given for a field is the value of a member. -/
theorem mem_of_mem_givenMembers {names : List (List String)} {members : List (String × Json)} {seen : List Nat}
    {given : List (Nat × Json)} (h : givenMembers names members seen = .ok given) {i : Nat} {v : Json}
    (hv : (i, v) ∈ given) : ∃ name, (name, v) ∈ members := by
  induction members generalizing seen given with
  | nil =>
    simp only [givenMembers, Except.ok.injEq] at h
    simp [← h] at hv
  | cons m rest ih =>
    obtain ⟨name, value⟩ := m
    simp only [givenMembers] at h
    split at h
    · obtain ⟨n, hn⟩ := ih h hv
      exact ⟨n, List.mem_cons_of_mem _ hn⟩
    · split at h
      · simp at h
      · cases hr : givenMembers names rest (‹Nat› :: seen) with
        | error e => simp [hr, Except.map] at h
        | ok tail =>
          simp only [hr, Except.map, Except.ok.injEq] at h
          rw [← h, List.mem_cons] at hv
          rcases hv with hv | hv
          · obtain ⟨-, rfl⟩ := Prod.mk.injEq .. ▸ hv
            exact ⟨name, List.mem_cons_self⟩
          · obtain ⟨n, hn⟩ := ih hr hv
            exact ⟨n, List.mem_cons_of_mem _ hn⟩

/-- A value given for a field is smaller than the document of the record. -/
theorem sizeOf_lt_of_get? {names : List (List String)} {v w : Json} {fs : Fields} {i : Nat}
    (hf : fields names v = .ok fs) (hw : fs.get? i = some w) : sizeOf w < sizeOf v := by
  obtain ⟨p, hp, rfl⟩ := Option.map_eq_some_iff.1 hw
  have hm : p ∈ fs.given := List.mem_of_find?_eq_some hp
  cases v with
  | object members =>
    simp only [fields] at hf
    cases hg : givenMembers names members [] with
    | error e => simp [hg, Except.map] at hf
    | ok given =>
      simp only [hg, Except.map, Except.ok.injEq] at hf
      obtain ⟨name, hn⟩ := mem_of_mem_givenMembers hg (i := p.1) (v := p.2) (by rw [← hf] at hm; exact hm)
      have := List.sizeOf_lt_of_mem hn
      simp only [Prod.mk.sizeOf_spec] at this
      simp only [object.sizeOf_spec]
      omega
  | list items =>
    simp only [fields] at hf
    split at hf
    · simp only [Except.ok.injEq] at hf
      rw [← hf] at hm
      have := List.sizeOf_lt_of_mem (List.of_mem_zip hm).2
      simp only [list.sizeOf_spec]
      omega
    · simp at hf
  | _ => simp [fields] at hf

/-- The value of a field that must be given. -/
def Fields.required {α : Type} (fs : Fields) (i : Nat) (read : Json → Read α) : Read α :=
  match fs.get? i with
  | some v => read v
  | none => .error .shape

/-- The value of a field, or its default. -/
def Fields.orElse {α : Type} (fs : Fields) (i : Nat) (default : α) (read : Json → Read α) : Read α :=
  match fs.get? i with
  | some v => read v
  | none => .ok default

/-- A text. -/
def asText : Json → Read String
  | .text s => .ok s
  | _ => .error .shape

/-- A number. -/
def asNumber : Json → Read Float
  | .number n => .ok n.toFloat
  | _ => .error .shape

/-- A whole number of 64 bits without a sign. -/
def asCount : Json → Read Nat
  | .number (.whole n) => .ok n
  | _ => .error .shape

/-- A truth value. -/
def asFlag : Json → Read Bool
  | .bool b => .ok b
  | _ => .error .shape

/-- A whole number of 64 bits with a sign. -/
def asWhole : Json → Read Int
  | .number (.whole n) => if n < Nat.pow 2 63 then .ok n else .error .shape
  | .number (.negative n) => .ok (-n)
  | _ => .error .shape

/-- A value that may be null. -/
def asOptional {α : Type} (read : Json → Read α) : Json → Read (Option α)
  | .null => .ok none
  | v => (read v).map some

/-- The value of a field that may be null, and that an object, but not a list, may leave out. -/
def Fields.mayLack {α : Type} (fs : Fields) (i : Nat) (read : Json → Read α) : Read (Option α) :=
  match fs.get? i, fs.form with
  | some v, _ => asOptional read v
  | none, .keyed => .ok none
  | none, .positional => .error .shape

/-- A list, each item read alike; the first item that is refused refuses the list. -/
def asList {α : Type} (read : Json → Read α) : Json → Read (List α)
  | .list items => items.mapM read
  | _ => .error .shape

/-- The name of an alternative without data: the name itself, or an object whose only member has that name and is null. -/
def asName : Json → Read String
  | .text s => .ok s
  | .object [(name, .null)] => .ok name
  | _ => .error .shape

end Json

end EquityScreen
