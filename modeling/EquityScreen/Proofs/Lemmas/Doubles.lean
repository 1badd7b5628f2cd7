import Mathlib
import EquityScreen.Decimal.Order
import EquityScreen.Store.Record

/-!
# Doubles: their order and what the table makes of them

A double is a sign and a magnitude of 63 bits. What it unpacks to is told by the two alone (`unpacks`), and packing gives the
bits back (`ofModel_pack_unpack`). From that follow the two facts the rest of the theory needs: the table keeps neither the
mark of a missing number nor `-0.0` (`isTame_of_storedNumber`), and the doubles it does keep are ordered as their places are
(`lt_iff_place_lt`), one place being one number (`place_injective`).
-/

namespace EquityScreen

open Float.Model Float.Model.UnpackedFloat

/-! ## Sign and magnitude -/

/-- The bits of a double below its sign. -/
def magnitude (x : Float) : Nat := x.toBits.toNat % 2 ^ 63

/-- The sign of a double. -/
def signOf (x : Float) : Sign := if x.toBits.toNat < 2 ^ 63 then .positive else .negative

/-- The weight of a sign among the bits. -/
def signWeight (s : Sign) : Nat :=
  match s with
  | .positive => 0
  | .negative => 2 ^ 63

/-- The place of a magnitude with a sign. -/
def placeOf (s : Sign) (n : Nat) : Int :=
  match s with
  | .positive => n
  | .negative => -(n : Int) - 1

/-- The bits are the sign and the magnitude. -/
theorem toNat_toBits (x : Float) : x.toBits.toNat = signWeight (signOf x) + magnitude x := by
  have hlt := x.toBits.toNat_lt
  unfold signOf magnitude
  by_cases h : x.toBits.toNat < 2 ^ 63
  · rw [if_pos h, signWeight]
    omega
  · rw [if_neg h, signWeight]
    omega

/-- The place of a double is the place of its magnitude with its sign. -/
theorem place_eq (x : Float) : place x = placeOf (signOf x) (magnitude x) := by
  have hand : (x.toBits &&& 0x7FFFFFFFFFFFFFFF).toNat = magnitude x := by
    rw [UInt64.toNat_and]
    exact Nat.and_two_pow_sub_one_eq_mod x.toBits.toNat 63
  have hsign : signBit x = decide (2 ^ 63 ≤ x.toBits.toNat) := by
    have hlt := x.toBits.toNat_lt
    rw [signBit, Bool.eq_iff_iff, beq_iff_eq, decide_eq_true_iff, ← UInt64.toNat_inj, UInt64.toNat_shiftRight]
    simp only [UInt64.reduceToNat, Nat.reduceMod, Nat.shiftRight_eq_div_pow]
    omega
  unfold place signOf
  rw [hand, hsign]
  by_cases h : x.toBits.toNat < 2 ^ 63
  · rw [if_neg (by simpa using h), if_pos h]
    rfl
  · rw [if_pos (by simpa using h), if_neg h]
    rfl

/-- A place belongs to one sign and one magnitude. -/
theorem placeOf_injective {s t : Sign} {n k : Nat} (h : placeOf s n = placeOf t k) : s = t ∧ n = k := by
  cases s <;> cases t <;> simp only [placeOf] at h
  · exact ⟨rfl, by omega⟩
  · omega
  · omega
  · exact ⟨rfl, by omega⟩

/-- Doubles at one place are equal. -/
theorem place_injective {x y : Float} (h : place x = place y) : x = y := by
  rw [place_eq, place_eq] at h
  obtain ⟨hs, hn⟩ := placeOf_injective h
  refine Float.toBits_inj.1 (UInt64.toNat_inj.1 ?_)
  rw [toNat_toBits x, toNat_toBits y, hs, hn]

/-! ## Components of the bits -/

/-- The exponent among the bits of a double. -/
def exponentBits (x : Float) : BitVec 11 := @unpackExponent Format.binary64 x.toBits.toBitVec

/-- The mantissa among the bits of a double, without its leading bit. -/
def mantissaBits (x : Float) : BitVec 52 := @unpackMantissa Format.binary64 x.toBits.toBitVec

theorem toNat_exponentBits (x : Float) : (exponentBits x).toNat = x.toBits.toNat / 2 ^ 52 % 2 ^ 11 := by
  unfold exponentBits unpackExponent
  rw [BitVec.toNat_cast, BitVec.extractLsb_toNat, Nat.shiftRight_eq_div_pow]
  rfl

theorem toNat_mantissaBits (x : Float) : (mantissaBits x).toNat = x.toBits.toNat % 2 ^ 52 := by
  unfold mantissaBits unpackMantissa
  rw [BitVec.toNat_cast, BitVec.extractLsb_toNat, Nat.shiftRight_zero]
  rfl

/-- The magnitude is the exponent and the mantissa. -/
theorem magnitude_eq (x : Float) : magnitude x = (exponentBits x).toNat * 2 ^ 52 + (mantissaBits x).toNat := by
  rw [toNat_exponentBits, toNat_mantissaBits, magnitude]
  omega

/-- The sign read from the bits is the sign. -/
theorem ofBitVec_unpackSign (x : Float) :
    Sign.ofBitVec (@unpackSign Format.binary64 x.toBits.toBitVec) = signOf x := by
  have hlt := x.toBits.toNat_lt
  have hs : (@unpackSign Format.binary64 x.toBits.toBitVec).toNat = x.toBits.toNat / 2 ^ 63 % 2 := by
    unfold unpackSign
    rw [BitVec.toNat_cast, BitVec.extractLsb_toNat, Nat.shiftRight_eq_div_pow]
    rfl
  unfold Sign.ofBitVec signOf
  by_cases h : x.toBits.toNat < 2 ^ 63
  · rw [if_pos h, if_pos]
    rw [← BitVec.toNat_inj, hs]
    show x.toBits.toNat / 2 ^ 63 % 2 = 0
    omega
  · rw [if_neg h, if_neg]
    intro hzero
    rw [hzero] at hs
    replace hs : 0 = x.toBits.toNat / 2 ^ 63 % 2 := hs
    omega

/-! ## Unpacking and packing -/

/-- What a double that is a number unpacks to, by its sign and its magnitude. A mantissa has its leading bit unless the
exponent is the least. -/
inductive Unpacks (s : Sign) (n : Nat) : UnpackedFloat → Prop where
  | zero : n = 0 → Unpacks s n (.zero s)
  | finite (m : Nat) (e : Int) (h : 0 < m) : m < 2 ^ 53 → -1074 ≤ e → e = -1074 ∨ 2 ^ 52 ≤ m →
      (n : Int) = (e + 1074) * 2 ^ 52 + m → n < 2047 * 2 ^ 52 → Unpacks s n (.finite s m e h)
  | infinity : n = 2047 * 2 ^ 52 → Unpacks s n (.infinity s)

/-- A number unpacks to what its sign and its magnitude say. -/
theorem unpacks (x : Float) (h : x.isNaN = false) : Unpacks (signOf x) (magnitude x) x.toModel.unpack := by
  have hlE : (exponentBits x).toNat < 2 ^ 11 := BitVec.isLt _
  have hlM : (mantissaBits x).toNat < 2 ^ 52 := BitVec.isLt _
  have hmag := magnitude_eq x
  have hnan : (UnpackedFloat.unpack Format.binary64 x.toBits.toBitVec).isNaN = false := h
  change Unpacks (signOf x) (magnitude x) (UnpackedFloat.unpack Format.binary64 x.toBits.toBitVec)
  have hbias : ((Format.binary64.exponentBias : Nat) : Int) + (Format.binary64.mantissaBitsWithoutImplicit : Nat) = 1075 := rfl
  have hexp : @unpackExponent Format.binary64 x.toBits.toBitVec = exponentBits x := rfl
  have hman : @unpackMantissa Format.binary64 x.toBits.toBitVec = mantissaBits x := rfl
  simp only [UnpackedFloat.unpack, ofBitVec_unpackSign x, hbias, hexp, hman] at hnan ⊢
  by_cases hinf : exponentBits x = -1#_
  · by_cases hm : mantissaBits x = 0#_
    · simp only [hinf, hm, if_true]
      refine .infinity ?_
      rw [hmag, hinf, hm]
      rfl
    · simp only [hinf, hm, if_true, if_false] at hnan
      exact absurd hnan (by decide)
  · have hE : (exponentBits x).toNat ≠ 2047 :=
      fun heq => hinf (BitVec.toNat_inj.1 heq)
    simp only [hinf, if_false]
    by_cases he : exponentBits x = 0#_
    · have hE0 : (exponentBits x).toNat = 0 := by rw [he]; rfl
      simp only [he, if_true]
      by_cases hm : mantissaBits x = 0#_
      · rw [dif_pos hm]
        refine .zero ?_
        rw [hmag, he, hm]
        rfl
      · rw [dif_neg hm]
        refine .finite _ _ _ ?_ ?_ ?_ ?_ ?_
        · omega
        · simp
        · simp
        · simp only [BitVec.toNat_zero]
          omega
        · omega
    · have hE0 : (exponentBits x).toNat ≠ 0 :=
        fun heq => he (BitVec.toNat_inj.1 heq)
      have hlead : (1#1 ++ mantissaBits x).toNat = 2 ^ 52 + (mantissaBits x).toNat := by
        rw [BitVec.toNat_append, ← Nat.shiftLeft_add_eq_or_of_lt hlM]
        rfl
      rw [if_neg he]
      refine .finite _ _ _ ?_ ?_ ?_ ?_ ?_
      · rw [hlead]
        omega
      · omega
      · rw [hlead]
        omega
      · rw [hlead]
        omega
      · omega

/-- A double is packed again from what it unpacks to. -/
theorem ofModel_pack_unpack (x : Float) : Float.ofModel (pack x.toModel.unpack) = x := by
  refine Float.toBits_inj.1 (UInt64.toBitVec_inj.1 ?_)
  exact pack_unpack_of_valid x.toModel.valid

/-! ## Numbers that the table keeps -/

/-- A number that the table keeps: not the mark of a missing number, and not `-0.0`. -/
structure IsTame (x : Float) : Prop where
  isNumber : x.isNaN = false
  notMinusZero : x ≠ -0.0

/-- Adding `0.0` changes no number but `-0.0`. -/
theorem add_zero_of_isTame {x : Float} (h : IsTame x) : x + 0.0 = x := by
  have hsum : x + 0.0 = Float.ofModel (pack (UnpackedFloat.add Format.binary64 x.toModel.unpack (.zero .positive))) := rfl
  have hback := ofModel_pack_unpack x
  have hnan : x.toModel.unpack.isNaN = false := h.isNumber
  rw [hsum]
  cases hu : x.toModel.unpack with
  | notANumber =>
    rw [hu] at hnan
    exact absurd hnan (by decide)
  | infinity s =>
    rw [hu] at hback
    exact hback
  | finite s m e hm =>
    rw [hu] at hback
    exact hback
  | zero s =>
    rw [hu] at hback
    cases s with
    | positive => exact hback
    | negative => exact absurd hback.symm h.notMinusZero

/-- Whatever the table makes of a number is one it keeps. -/
theorem isTame_of_storedNumber {x y : Float} (h : Record.storedNumber x = some y) : IsTame y := by
  unfold Record.storedNumber at h
  by_cases hnan : x.isNaN = true
  · rw [if_pos hnan] at h
    exact absurd h (by simp)
  · rw [if_neg hnan] at h
    rw [Bool.not_eq_true] at hnan
    obtain rfl := Option.some.inj h
    by_cases hz : x = -0.0
    · subst hz
      exact ⟨by decide, by decide⟩
    · rw [add_zero_of_isTame ⟨hnan, hz⟩]
      exact ⟨hnan, hz⟩

/-! ## Order -/

/-- Exponents and then mantissas are in the order of the magnitudes. -/
theorem compare_exponents {m₁ m₂ n k : Nat} {e₁ e₂ : Int} (hm₁ : m₁ < 2 ^ 53) (he₁ : -1074 ≤ e₁)
    (hl₁ : e₁ = -1074 ∨ 2 ^ 52 ≤ m₁) (hn : (n : Int) = (e₁ + 1074) * 2 ^ 52 + m₁) (hm₂ : m₂ < 2 ^ 53) (he₂ : -1074 ≤ e₂)
    (hl₂ : e₂ = -1074 ∨ 2 ^ 52 ≤ m₂) (hk : (k : Int) = (e₂ + 1074) * 2 ^ 52 + m₂) :
    (compare e₁ e₂).then (compare m₁ m₂) = compare n k := by
  rcases lt_trichotomy e₁ e₂ with he | he | he
  · rw [compare_lt_iff_lt.2 he]
    exact (compare_lt_iff_lt.2 (by omega)).symm
  · subst he
    rw [compare_eq_iff_eq.2 rfl, Ordering.then]
    rcases lt_trichotomy m₁ m₂ with hm | hm | hm
    · rw [compare_lt_iff_lt.2 hm, eq_comm, compare_lt_iff_lt]
      omega
    · rw [compare_eq_iff_eq.2 hm, eq_comm, compare_eq_iff_eq]
      omega
    · rw [compare_gt_iff_gt.2 hm, eq_comm, compare_gt_iff_gt]
      omega
  · rw [compare_gt_iff_gt.2 he]
    exact (compare_gt_iff_gt.2 (by omega)).symm

/-- With a plus places are in the order of their magnitudes, with a minus in the opposite one. -/
theorem compare_placeOf (s : Sign) (n k : Nat) : compare (placeOf s n) (placeOf s k) =
    match s with
    | .positive => compare n k
    | .negative => (compare n k).swap := by
  cases s with
  | positive =>
    rcases lt_trichotomy n k with h | h | h
    · rw [compare_lt_iff_lt.2 h]
      exact compare_lt_iff_lt.2 (by simp only [placeOf]; omega)
    · rw [compare_eq_iff_eq.2 h]
      exact compare_eq_iff_eq.2 (by simp only [placeOf]; omega)
    · rw [compare_gt_iff_gt.2 h]
      exact compare_gt_iff_gt.2 (by simp only [placeOf]; omega)
  | negative =>
    rcases lt_trichotomy n k with h | h | h
    · rw [compare_lt_iff_lt.2 h]
      exact compare_gt_iff_gt.2 (by simp only [placeOf]; omega)
    · rw [compare_eq_iff_eq.2 h]
      exact compare_eq_iff_eq.2 (by simp only [placeOf]; omega)
    · rw [compare_gt_iff_gt.2 h]
      exact compare_lt_iff_lt.2 (by simp only [placeOf]; omega)

/-- What is unpacked compares as the places do. `-0.0` is left out: it compares equal to `0.0`. -/
theorem compare_of_unpacks {s t : Sign} {n k : Nat} {u v : UnpackedFloat} (hu : Unpacks s n u) (hv : Unpacks t k v)
    (hs : placeOf s n ≠ -1) (ht : placeOf t k ≠ -1) : u.compare v = some (compare (placeOf s n) (placeOf t k)) := by
  have below {a b : Int} (h : a < b) : some Ordering.lt = some (compare a b) := congrArg some (compare_lt_iff_lt.2 h).symm
  have above {a b : Int} (h : b < a) : some Ordering.gt = some (compare a b) := congrArg some (compare_gt_iff_gt.2 h).symm
  have level {a b : Int} (h : a = b) : some Ordering.eq = some (compare a b) := congrArg some (compare_eq_iff_eq.2 h).symm
  cases hu <;> cases hv
  case finite.finite m₁ e₁ _ hm₁ he₁ hl₁ hn hnlt m₂ e₂ _ hm₂ he₂ hl₂ hk hklt =>
    have hmag := compare_exponents hm₁ he₁ hl₁ hn hm₂ he₂ hl₂ hk
    cases s <;> cases t
    · simp only [UnpackedFloat.compare, hmag, compare_placeOf]
    · exact below (by simp only [placeOf]; omega)
    · exact above (by simp only [placeOf]; omega)
    · simp only [UnpackedFloat.compare, hmag, compare_placeOf]
  -- Zero and infinity compare by what they are and by the signs; no mantissa is looked at.
  all_goals
    cases s <;> cases t <;> simp only [placeOf] at hs ht ⊢ <;>
      first
      | omega
      | exact above (by omega)
      | exact below (by omega)
      | exact level (by omega)

/-- No number that the table keeps has the place of `-0.0`. -/
theorem place_ne_of_isTame {x : Float} (h : IsTame x) : place x ≠ -1 := by
  intro hp
  have hz : place (-0.0) = -1 := by decide
  exact h.notMinusZero (place_injective (hp.trans hz.symm))

/-- Two numbers that the table keeps compare as their places do. -/
theorem compare_eq_place {x y : Float} (hx : IsTame x) (hy : IsTame y) :
    x.toModel.unpack.compare y.toModel.unpack = some (compare (place x) (place y)) := by
  have hpx := place_ne_of_isTame hx
  have hpy := place_ne_of_isTame hy
  rw [place_eq] at hpx hpy ⊢
  rw [place_eq]
  exact compare_of_unpacks (unpacks x hx.isNumber) (unpacks y hy.isNumber) hpx hpy

/-- One double is below another when what they unpack to compares so. -/
theorem lt_iff_compare {x y : Float} : x < y ↔ x.toModel.unpack.compare y.toModel.unpack = some .lt := by
  have hdef : (x < y) = (x.lt y = true) := rfl
  rw [hdef, Float.lt, decide_eq_true_iff]
  exact beq_iff_eq

/-- Of two numbers that the table keeps the smaller one has the lower place. -/
theorem lt_iff_place_lt {x y : Float} (hx : IsTame x) (hy : IsTame y) : x < y ↔ place x < place y := by
  rw [lt_iff_compare, compare_eq_place hx hy, Option.some_inj, compare_lt_iff_lt]

/-- Either zero is below the same numbers, and the same numbers are below it. -/
theorem minusZero_lt_iff {x : Float} : (-0.0 < x ↔ 0.0 < x) ∧ (x < -0.0 ↔ x < 0.0) := by
  have hminus : (-0.0 : Float).toModel.unpack = .zero .negative := by rfl
  have hplus : (0.0 : Float).toModel.unpack = .zero .positive := by rfl
  simp only [lt_iff_compare, hminus, hplus]
  cases x.toModel.unpack with
  | notANumber => exact ⟨.rfl, .rfl⟩
  | zero s => exact ⟨.rfl, .rfl⟩
  | infinity s => cases s <;> exact ⟨.rfl, .rfl⟩
  | finite s m e h => cases s <;> exact ⟨.rfl, .rfl⟩

/-- Of two numbers the lower place is that of the smaller one, and of the two zeros that of `-0.0`. -/
theorem place_lt_iff {x y : Float} (hx : x.isNaN = false) (hy : y.isNaN = false) :
    place x < place y ↔ x < y ∨ x = -0.0 ∧ y = 0.0 := by
  have hminus : place (-0.0) = -1 := by decide
  have hzero : place 0.0 = 0 := by decide
  have htame : IsTame 0.0 := ⟨by decide, by decide⟩
  by_cases hxm : x = -0.0
  · subst hxm
    by_cases hym : y = -0.0
    · subst hym
      rw [minusZero_lt_iff.1, minusZero_lt_iff.2]
      decide
    · rw [minusZero_lt_iff.1, lt_iff_place_lt htame ⟨hy, hym⟩, hminus, hzero]
      constructor
      · intro h
        rcases eq_or_lt_of_le (Int.add_one_le_of_lt h) with heq | hlt
        · exact .inr ⟨rfl, place_injective (heq.symm.trans hzero.symm)⟩
        · exact .inl hlt
      · rintro (h | ⟨-, rfl⟩)
        · omega
        · decide
  · by_cases hym : y = -0.0
    · subst hym
      have hne := place_ne_of_isTame ⟨hx, hxm⟩
      rw [minusZero_lt_iff.2, lt_iff_place_lt ⟨hx, hxm⟩ htame, hminus, hzero]
      simp only [hxm, false_and, or_false]
      omega
    · rw [lt_iff_place_lt ⟨hx, hxm⟩ ⟨hy, hym⟩]
      simp only [hxm, false_and, or_false]

/-! ## The mark of a missing number -/

/-- The mark of a missing number has no place in the order. -/
theorem compare_of_isNaN {u v : UnpackedFloat} (h : u.isNaN = true ∨ v.isNaN = true) : u.compare v = none := by
  rcases h with h | h
  · cases u with
    | notANumber => cases v <;> rfl
    | _ => exact absurd h Bool.false_ne_true
  · cases v with
    | notANumber => cases u <;> rfl
    | _ => exact absurd h Bool.false_ne_true

/-- The mark of a missing number is not below anything, and nothing is below it. -/
theorem not_lt_of_isNaN {x y : Float} (h : x.isNaN = true ∨ y.isNaN = true) : ¬x < y := by
  rw [lt_iff_compare, compare_of_isNaN h]
  exact nofun

/-- The mark of a missing number is not at most anything, and nothing is at most it. -/
theorem not_le_of_isNaN {x y : Float} (h : x.isNaN = true ∨ y.isNaN = true) : ¬x ≤ y := by
  have hdef : (x ≤ y) = (x.le y = true) := rfl
  rw [hdef, Float.le, decide_eq_true_iff]
  show ¬(x.toModel.unpack.compare y.toModel.unpack).any (·.isLE) = true
  rw [compare_of_isNaN h]
  exact Bool.false_ne_true

/-- The mark of a missing number equals nothing. -/
theorem beq_of_isNaN {x y : Float} (h : x.isNaN = true ∨ y.isNaN = true) : (x == y) = false := by
  refine Bool.eq_false_iff.2 fun heq => ?_
  obtain ⟨hx, hy, -⟩ := Float.beq_iff_ne_nan_and_eq.1 heq
  rw [Float.isNaN_eq_decide_eq_nan, Float.isNaN_eq_decide_eq_nan, decide_eq_true_iff, decide_eq_true_iff] at h
  exact h.elim hx hy

end EquityScreen
