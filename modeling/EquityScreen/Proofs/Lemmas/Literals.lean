import EquityScreen.Proofs.Lemmas.Names
import EquityScreen.Proofs.Lemmas.TenThousandths

/-!
# Literals under the names of the registry

Normalizing a literal for `market_cap` divides its numbers by ten thousand; texts, and the literals of every other field, stay
as they are. A literal that is a number stays one, and one that reads as the mark of a missing number keeps reading as it
(`ReadsMissing.normalize`).
-/

namespace EquityScreen

/-- The number of a literal once its field has the name of the registry. -/
def scaled (field : String) (x : Float) : Float := if field = "market_cap" then x / 10000.0 else x

theorem normalizeLiteral_number (field : String) (x : Float) :
    normalizeLiteral field (.number x) = .number (scaled field x) := by
  unfold normalizeLiteral scaled
  split <;> rfl

theorem normalizeLiteral_text (field : String) (s : String) : normalizeLiteral field (.text s) = .text s := by
  unfold normalizeLiteral
  split <;> rfl

theorem normalizeLiteral_pair (field : String) (v w : Literal) :
    normalizeLiteral field (.list [v, w]) = .list [normalizeLiteral field v, normalizeLiteral field w] := by
  unfold normalizeLiteral
  split
  · rw [Literal.mapNumbers, Literal.mapNumbersAll_eq_map, List.map_cons, List.map_cons, List.map_nil]
  · rfl

theorem Leaf.normalize_number (field : String) (op : Operator) (x : Float) :
    normalize ⟨field, op, .literal (.number x)⟩ = ⟨canonicalName field, op, .literal (.number (scaled field x))⟩ := by
  simp only [normalize, Operand.normalize, normalizeLiteral_number]

theorem Leaf.normalize_text (field : String) (op : Operator) (s : String) :
    normalize ⟨field, op, .literal (.text s)⟩ = ⟨canonicalName field, op, .literal (.text s)⟩ := by
  simp only [normalize, Operand.normalize, normalizeLiteral_text]

theorem Leaf.normalize_pair (field : String) (op : Operator) (v w : Literal) :
    normalize ⟨field, op, .literal (.list [v, w])⟩ =
      ⟨canonicalName field, op, .literal (.list [normalizeLiteral field v, normalizeLiteral field w])⟩ := by
  simp only [normalize, Operand.normalize, normalizeLiteral_pair]

/-- A literal keeps being a number, or none, under the names of the registry. -/
theorem isSome_asNumber_normalizeLiteral (field : String) (v : Literal) :
    (normalizeLiteral field v).asNumber.isSome = v.asNumber.isSome := by
  cases v with
  | number x =>
    rw [normalizeLiteral_number]
    rfl
  | text s => rw [normalizeLiteral_text]
  | list items =>
    unfold normalizeLiteral
    split <;> rfl

/-- The bounds of two literals are there when both are numbers. -/
theorem isSome_asBounds (v w : Literal) :
    (Literal.list [v, w]).asBounds.isSome = (v.asNumber.isSome && w.asNumber.isSome) := by
  rw [Literal.asBounds]
  cases v.asNumber <;> cases w.asNumber <;> rfl

/-- The literal reads as the mark of a missing number. -/
def Literal.ReadsMissing (v : Literal) : Prop := ∃ x, v.asNumber = some x ∧ x.isNaN = true

/-- The mark of a missing number is not lost under the names of the registry. -/
theorem Literal.ReadsMissing.normalize {v : Literal} (h : v.ReadsMissing) (field : String) :
    (normalizeLiteral field v).ReadsMissing := by
  obtain ⟨x, hx, hnan⟩ := h
  cases v with
  | number y =>
    obtain rfl := Option.some.inj hx
    rw [normalizeLiteral_number]
    refine ⟨scaled field y, rfl, ?_⟩
    unfold scaled
    split
    · rwa [div_of_isNaN hnan]
    · exact hnan
  | text s =>
    rw [normalizeLiteral_text]
    exact ⟨x, hx, hnan⟩
  | list items => exact absurd hx (by simp [Literal.asNumber])

end EquityScreen
