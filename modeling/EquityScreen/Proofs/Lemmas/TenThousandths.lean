import EquityScreen.Proofs.Lemmas.Doubles

/-!
# Ten-thousandths

The number of a literal for `market_cap` is divided by ten thousand. A number stays a number (`isNaN_div`), and unless it is
its own ten-thousandth, as zero, infinity and the mark of a missing number are, it lies below the quotient or above it
(`lt_or_gt_of_div_ne`).
-/

namespace EquityScreen

open Float.Model Float.Model.UnpackedFloat

/-! ## Numbers among doubles -/

/-- What is packed from a sign, a mantissa and an exponent is a number. -/
theorem isNaN_pack_finite (s : Sign) (m : Nat) (e : Int) (h : 0 < m) :
    (Float.ofModel (pack (.finite s m e h))).isNaN = false := by
  refine Bool.eq_false_iff.2 fun hnan => ?_
  have hbits : UnpackedFloat.pack Format.binary64 (.finite s m e h) = packedNaN Format.binary64 :=
    (isNaN_unpack_iff_of_valid valid_pack).1 hnan
  have hexp := congrArg unpackExponent hbits
  have hman := congrArg unpackMantissa hbits
  rw [packedNaN, unpackExponent_packComponents] at hexp
  rw [packedNaN, unpackMantissa_packComponents] at hman
  rw [UnpackedFloat.pack] at hexp hman
  dsimp only at hexp hman
  split at hexp
  · rename_i hbig
    rw [if_pos hbig, packedInfinity, unpackMantissa_packComponents] at hman
    exact absurd hman (by decide)
  · rename_i hsmall
    replace hsmall : ¬2 ^ 11 ≤ _ + 1 := hsmall
    split at hexp
    · rw [unpackExponent_packComponents] at hexp
      replace hexp : _ % 2 ^ 11 = 2047 := congrArg BitVec.toNat hexp
      omega
    · rw [unpackExponent_packComponents] at hexp
      exact absurd hexp (by decide)

/-- A ten-thousandth is a quotient of what is unpacked. -/
theorem div_eq_pack (x : Float) : x / 10000.0 = Float.ofModel (pack (UnpackedFloat.div Format.binary64 x.toModel.unpack
    (.finite .positive 5497558138880000 (-39) (by decide)))) := rfl

/-- A ten-thousandth of a number is a number. -/
theorem isNaN_div {x : Float} (h : x.isNaN = false) : (x / 10000.0).isNaN = false := by
  have hnan : x.toModel.unpack.isNaN = false := h
  rw [div_eq_pack]
  cases hu : x.toModel.unpack with
  | notANumber =>
    rw [hu] at hnan
    exact absurd hnan (by decide)
  | infinity s => cases s <;> decide
  | zero s => cases s <;> decide
  | finite s m e hm =>
    rw [UnpackedFloat.div]
    unfold roundWithAccuracy
    dsimp only
    split
    · cases s <;> decide
    · exact isNaN_pack_finite _ _ _ _

/-- Doubles that unpack to the same are equal. -/
theorem unpack_injective {x y : Float} (h : x.toModel.unpack = y.toModel.unpack) : x = y := by
  rw [← ofModel_pack_unpack x, h, ofModel_pack_unpack]

/-! ## Order of any two numbers -/

/-- One of two exponents with their mantissas is before the other unless they are the same. -/
theorem compare_then_cases (e₁ e₂ : Int) (m₁ m₂ : Nat) :
    (compare e₁ e₂).then (compare m₁ m₂) = .lt ∨ (compare e₂ e₁).then (compare m₂ m₁) = .lt ∨ e₁ = e₂ ∧ m₁ = m₂ := by
  rcases lt_trichotomy e₁ e₂ with he | rfl | he
  · exact .inl (by rw [compare_lt_iff_lt.2 he]; rfl)
  · rcases lt_trichotomy m₁ m₂ with hm | rfl | hm
    · exact .inl (by rw [compare_eq_iff_eq.2 rfl, compare_lt_iff_lt.2 hm]; rfl)
    · exact .inr (.inr ⟨rfl, rfl⟩)
    · exact .inr (.inl (by rw [compare_eq_iff_eq.2 rfl, compare_lt_iff_lt.2 hm]; rfl))
  · exact .inr (.inl (by rw [compare_lt_iff_lt.2 he]; rfl))

/-- Of two numbers one is below the other unless they are the same or both zero. -/
theorem compare_cases {u v : UnpackedFloat} (hu : u.isNaN = false) (hv : v.isNaN = false) :
    u.compare v = some .lt ∨ v.compare u = some .lt ∨ u = v ∨ ∃ s t, u = .zero s ∧ v = .zero t := by
  cases u with
  | notANumber => exact absurd hu (by decide)
  | infinity s =>
    cases v with
    | notANumber => exact absurd hv (by decide)
    | infinity t => cases s <;> cases t <;> simp [UnpackedFloat.compare] <;> decide
    | zero t => cases s <;> simp [UnpackedFloat.compare]
    | finite t m e h => cases s <;> simp [UnpackedFloat.compare]
  | zero s =>
    cases v with
    | notANumber => exact absurd hv (by decide)
    | infinity t => cases t <;> simp [UnpackedFloat.compare]
    | zero t => exact .inr (.inr (.inr ⟨s, t, rfl, rfl⟩))
    | finite t m e h => cases t <;> simp [UnpackedFloat.compare]
  | finite s m e h =>
    cases v with
    | notANumber => exact absurd hv (by decide)
    | infinity t => cases t <;> simp [UnpackedFloat.compare]
    | zero t => cases s <;> simp [UnpackedFloat.compare]
    | finite t k d hk =>
      have hswap (a b : Int) (i j : Nat) : ((compare a b).then (compare i j)).swap = (compare b a).then (compare j i) := by
        rw [Ordering.swap_then, Int.compare_swap, Nat.compare_swap]
      cases s <;> cases t
      case positive.negative => exact .inr (.inl rfl)
      case negative.positive => exact .inl rfl
      case positive.positive =>
        rcases compare_then_cases e d m k with hlt | hlt | ⟨rfl, rfl⟩
        · exact .inl (congrArg some hlt)
        · exact .inr (.inl (congrArg some hlt))
        · exact .inr (.inr (.inl rfl))
      case negative.negative =>
        rcases compare_then_cases d e k m with hlt | hlt | ⟨rfl, rfl⟩
        · exact .inl (congrArg some ((hswap e d m k).trans hlt))
        · exact .inr (.inl (congrArg some ((hswap d e k m).trans hlt)))
        · exact .inr (.inr (.inl rfl))

/-- A number that is not its own ten-thousandth is below it or above it. -/
theorem lt_or_gt_of_div_ne {x : Float} (hx : x.isNaN = false) (h : x / 10000.0 ≠ x) : x < x / 10000.0 ∨ x / 10000.0 < x := by
  rw [lt_iff_compare, lt_iff_compare]
  rcases compare_cases hx (isNaN_div hx) with hlt | hgt | heq | ⟨s, t, hzero, -⟩
  · exact .inl hlt
  · exact .inr hgt
  · exact absurd (unpack_injective heq).symm h
  · have hback := ofModel_pack_unpack x
    rw [hzero] at hback
    rw [← hback] at h
    cases s <;> exact absurd (by decide) h

/-- Nothing is below itself. -/
theorem not_lt_self {x : Float} : ¬x < x := by
  rw [lt_iff_compare]
  cases x.toModel.unpack with
  | notANumber => simp [UnpackedFloat.compare]
  | infinity s => cases s <;> decide
  | zero s => simp [UnpackedFloat.compare]
  | finite s m e h => cases s <;> simp [UnpackedFloat.compare]

/-- A number is at most itself. -/
theorem le_self {x : Float} (h : x.isNaN = false) : x ≤ x := by
  have hdef : (x ≤ x) = (x.le x = true) := rfl
  have hnan : x.toModel.unpack.isNaN = false := h
  rw [hdef, Float.le, decide_eq_true_iff]
  show (x.toModel.unpack.compare x.toModel.unpack).any (·.isLE) = true
  cases hu : x.toModel.unpack with
  | notANumber =>
    rw [hu] at hnan
    exact absurd hnan (by decide)
  | infinity s => cases s <;> decide
  | zero s => rfl
  | finite s m e h => cases s <;> simp [UnpackedFloat.compare]

/-- The mark of a missing number is its own ten-thousandth. -/
theorem div_of_isNaN {x : Float} (h : x.isNaN = true) : x / 10000.0 = x := by
  rw [Float.isNaN_eq_decide_eq_nan, decide_eq_true_iff] at h
  subst h
  decide

end EquityScreen
