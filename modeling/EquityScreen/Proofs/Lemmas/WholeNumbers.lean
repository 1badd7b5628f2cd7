import EquityScreen.Decimal.Whole
import EquityScreen.Proofs.Lemmas.TenThousandths

/-!
# Whole numbers as doubles

A double with a mantissa of 53 bits is packed and unpacked without loss (`unpack_pack`), and a mantissa that is longer is rounded
to such a one, a half to the even neighbour (`round_eq`). So a count of 64 bits becomes a finite double that is read as the
nearest whole number of 53 bits and zeros behind them (`wholeNumber?_ofNat`). It is the count itself exactly if the count is of
this form (`nearestDouble_eq_iff`), as every whole number that is read from a double is (`IsDouble.of_wholeNumber?`).
-/

namespace EquityScreen

open Float.Model Float.Model.UnpackedFloat

/-! ## Packing -/

/-- A mantissa with its leading bit has 53 bits. -/
theorem log2_of_leading {m : Nat} (hlead : 2 ^ 52 ≤ m) (hm : m < 2 ^ 53) : m.log2 = 52 :=
  (Nat.log2_eq_iff (by omega)).2 ⟨hlead, hm⟩

theorem signOf_pack {s : Sign} {m : Nat} {e : Int} {h : 0 < m} : signOf (Float.ofModel (pack (.finite s m e h))) = s := by
  have hsign (exponent : BitVec 11) (mantissa : BitVec 52) :
      Sign.ofBitVec (@unpackSign Format.binary64 (packComponents Format.binary64 s exponent mantissa)) = s := by
    have hbits : @unpackSign Format.binary64 (packComponents Format.binary64 s exponent mantissa) = s.toBitVec := by
      show (s.toBitVec ++ exponent ++ mantissa).extractLsb' 63 1 = s.toBitVec
      rw [BitVec.extractLsb'_append_eq_of_le (by decide), BitVec.extractLsb'_append_eq_of_le (by decide)]
      exact BitVec.extractLsb'_eq_self
    rw [hbits]
    cases s <;> rfl
  rw [← ofBitVec_unpackSign]
  show Sign.ofBitVec (@unpackSign Format.binary64 (UnpackedFloat.pack Format.binary64 (.finite s m e h))) = s
  rw [UnpackedFloat.pack]
  dsimp only
  split
  · exact hsign _ _
  · split
    · exact hsign _ _
    · exact hsign _ _

/-- The magnitude of what is packed is told by its exponent and mantissa. -/
theorem magnitude_pack {s : Sign} {m : Nat} {e : Int} {h : 0 < m} (hm : m < 2 ^ 53) (he : -1074 ≤ e) (hle : e ≤ 971)
    (hlead : e = -1074 ∨ 2 ^ 52 ≤ m) :
    (magnitude (Float.ofModel (pack (.finite s m e h))) : Int) = (e + 1074) * 2 ^ 52 + m := by
  have hbiased : (e + ((Format.binary64.exponentBias : Nat) : Int) +
      ((Format.binary64.mantissaBitsWithoutImplicit : Nat) : Int)).toNat = (e + 1075).toNat :=
    congrArg Int.toNat (Int.add_assoc e 1023 52)
  rw [magnitude_eq]
  show (((@unpackExponent Format.binary64 (UnpackedFloat.pack Format.binary64 (.finite s m e h))).toNat * 2 ^ 52 +
    (@unpackMantissa Format.binary64 (UnpackedFloat.pack Format.binary64 (.finite s m e h))).toNat : Nat) : Int) = _
  rw [UnpackedFloat.pack]
  dsimp only
  rw [hbiased, if_neg (show ¬2048 ≤ (e + 1075).toNat + 1 by omega)]
  by_cases hnormal : 2 ^ 52 ≤ m
  · rw [if_pos (show m.log2 + 1 = Format.binary64.mantissaBits by rw [log2_of_leading hnormal hm]; rfl), unpackExponent_packComponents,
      unpackMantissa_packComponents]
    show (((e + 1075).toNat % 2 ^ 11 * 2 ^ 52 + m % 2 ^ 52 : Nat) : Int) = _
    omega
  · have hlog : m.log2 < 52 := (Nat.log2_lt (by omega)).2 (by omega)
    rw [if_neg (show ¬m.log2 + 1 = Format.binary64.mantissaBits from (by omega : ¬m.log2 + 1 = 53)), unpackExponent_packComponents, unpackMantissa_packComponents]
    show ((0 * 2 ^ 52 + m % 2 ^ 52 : Nat) : Int) = _
    omega

/-- What is packed is unpacked again. -/
theorem unpack_pack {s : Sign} {m : Nat} {e : Int} (h : 0 < m) (hm : m < 2 ^ 53) (he : -1074 ≤ e) (hle : e ≤ 971)
    (hlead : e = -1074 ∨ 2 ^ 52 ≤ m) : (Float.ofModel (pack (.finite s m e h))).toModel.unpack = .finite s m e h := by
  have hmagnitude := magnitude_pack (s := s) (h := h) hm he hle hlead
  have hunpacks := unpacks _ (isNaN_pack_finite s m e h)
  rw [signOf_pack] at hunpacks
  generalize magnitude (Float.ofModel (pack (.finite s m e h))) = n at *
  generalize (Float.ofModel (pack (.finite s m e h))).toModel.unpack = u at *
  cases hunpacks with
  | zero hn | infinity hn => omega
  | finite m' e' h' hm' he' hlead' hn hlt =>
    obtain ⟨rfl, rfl⟩ : m' = m ∧ e' = e := by omega
    rfl

/-- What a double with a mantissa unpacks to is told by its magnitude. -/
theorem magnitude_of_unpack {x : Float} {s : Sign} {m : Nat} {e : Int} {h : 0 < m} (hx : x.toModel.unpack = .finite s m e h) :
    m < 2 ^ 53 ∧ -1074 ≤ e ∧ e ≤ 971 ∧ (e = -1074 ∨ 2 ^ 52 ≤ m) ∧ (magnitude x : Int) = (e + 1074) * 2 ^ 52 + m := by
  have hnumber : x.isNaN = false := by
    show x.toModel.unpack.isNaN = false
    rw [hx]
    rfl
  have hunpacks := unpacks x hnumber
  rw [hx] at hunpacks
  cases hunpacks with
  | finite _ _ _ hm he hlead hmagnitude hlt => exact ⟨hm, he, by omega, hlead, hmagnitude⟩

/-- The opposite of a finite double is finite. -/
theorem isFinite_neg {x : Float} (h : x.isFinite = true) : (-x).isFinite = true := by
  have hfinite : x.toModel.unpack.isFinite = true := h
  have hneg : -x = Float.ofModel (pack x.toModel.unpack.neg) := rfl
  rw [hneg]
  cases hu : x.toModel.unpack with
  | notANumber | infinity s =>
    rw [hu] at hfinite
    exact absurd hfinite (by simp [UnpackedFloat.isFinite])
  | zero s => cases s <;> decide
  | finite s m e hm =>
    obtain ⟨hmantissa, he, hle, hlead, -⟩ := magnitude_of_unpack hu
    show (Float.ofModel (pack (UnpackedFloat.finite (-s) m e hm))).toModel.unpack.isFinite = true
    rw [unpack_pack hm hmantissa he hle hlead]
    rfl

/-! ## Rounding -/

/-- Of the bits that are shifted out it is kept whether they make up a half at least, and whether they are anything but nothing
and a half. -/
structure Shifted (m k : Nat) (em : ExtendedMantissa) : Prop where
  mantissa : em.mantissa = m / 2 ^ k
  half : em.roundBit = true ↔ 2 ^ k ≤ 2 * (m % 2 ^ k)
  rest : em.stickyBit = true ↔ m % 2 ^ k ≠ 0 ∧ 2 * (m % 2 ^ k) ≠ 2 ^ k

theorem shifted (m k : Nat) : Shifted m k (ExtendedMantissa.ofMantissaAndAccuracy m .exact >>> k) := by
  show Shifted m k (Nat.repeat ExtendedMantissa.shiftRightOne k ⟨m, false, false⟩)
  induction k with
  | zero => constructor <;> simp [Nat.repeat, Nat.mod_one]
  | succ k ih =>
    have hrest : m % 2 ^ k < 2 ^ k := Nat.mod_lt m (Nat.two_pow_pos k)
    have hlast : m % 2 ^ (k + 1) = m % 2 ^ k + 2 ^ k * (m / 2 ^ k % 2) := Nat.mod_mul
    rw [Nat.repeat]
    generalize Nat.repeat ExtendedMantissa.shiftRightOne k ⟨m, false, false⟩ = em at ih
    -- The bit before the last is the last bit of the quotient so far, and all bits behind it go into the rest.
    have hbit := Nat.mod_two_eq_zero_or_one (m / 2 ^ k)
    constructor
    · show em.mantissa / 2 = _
      rw [ih.mantissa, Nat.div_div_eq_div_mul, Nat.pow_succ]
    · show (em.mantissa % 2 != 0) = true ↔ _
      rw [bne_iff_ne, ih.mantissa, hlast, Nat.pow_succ]
      rcases hbit with h | h <;> rw [h] <;> omega
    · show (em.roundBit || em.stickyBit) = true ↔ _
      rw [Bool.or_eq_true, ih.half, ih.rest, hlast, Nat.pow_succ]
      rcases hbit with h | h <;> rw [h] <;> omega

/-- Bits that are shifted out are rounded, a half to the even neighbour. -/
theorem roundedMantissa_shiftRight (m k : Nat) :
    (ExtendedMantissa.ofMantissaAndAccuracy m .exact >>> k).roundedMantissa = roundHalfEven m (2 ^ k) := by
  have hrest : m % 2 ^ k < 2 ^ k := Nat.mod_lt m (Nat.two_pow_pos k)
  obtain ⟨hmantissa, hhalf, hsticky⟩ := shifted m k
  generalize ExtendedMantissa.ofMantissaAndAccuracy m .exact >>> k = em at *
  obtain ⟨q, round, sticky⟩ := em
  obtain rfl : q = m / 2 ^ k := hmantissa
  unfold roundHalfEven
  dsimp only
  cases round
  · have hless : 2 * (m % 2 ^ k) < 2 ^ k := by simpa using hhalf
    rw [if_pos hless]
    cases sticky <;> rfl
  · have hmore : 2 ^ k ≤ 2 * (m % 2 ^ k) := by simpa using hhalf
    rw [if_neg (by omega)]
    cases sticky
    · have heven : 2 * (m % 2 ^ k) = 2 ^ k := by
        simp only [Bool.false_eq_true, false_iff, not_and_or, not_not] at hsticky
        omega
      rw [if_neg (by omega)]
      show m / 2 ^ k + m / 2 ^ k % 2 = _
      split <;> omega
    · have hne := (hsticky.1 rfl).2
      rw [if_pos (by omega)]
      rfl

/-- A quotient of multiples is rounded as that of the numbers. -/
theorem roundHalfEven_mul_right (n d : Nat) {c : Nat} (hc : 0 < c) : roundHalfEven (n * c) (d * c) = roundHalfEven n d := by
  have htwice : 2 * (n * c % (d * c)) = 2 * (n % d) * c := by rw [Nat.mul_mod_mul_right, Nat.mul_assoc]
  unfold roundHalfEven
  dsimp only
  simp only [htwice, Nat.mul_div_mul_right _ _ hc, Nat.mul_lt_mul_right hc]

@[simp] theorem roundHalfEven_one (n : Nat) : roundHalfEven n 1 = n := by
  simp [roundHalfEven, Nat.mod_one]

/-- The rounded quotient is the quotient, or one more. -/
theorem roundHalfEven_bounds (n d : Nat) : n / d ≤ roundHalfEven n d ∧ roundHalfEven n d ≤ n / d + 1 := by
  unfold roundHalfEven
  dsimp only
  split
  · omega
  · split
    · omega
    · split <;> omega

/-- A mantissa with a leading bit is rounded to 53 bits; where they do not hold it they end in a carry, which goes into the
exponent. -/
theorem round_eq {s : Sign} {m k : Nat} {e : Int} (hk : m.log2 = 52 + k) (he : -1074 ≤ e + k) :
    ∃ m' e' h, roundWithAccuracy Format.binary64 s m e .exact = .finite s m' e' h ∧ 2 ^ 52 ≤ m' ∧ m' < 2 ^ 53 ∧
      (e' = e + k ∧ m' = roundHalfEven m (2 ^ k) ∨ e' = e + k + 1 ∧ 2 * m' = roundHalfEven m (2 ^ k)) := by
  have hm : m ≠ 0 := by
    rintro rfl
    rw [Nat.log2_zero] at hk
    omega
  have hquotient : 2 ^ 52 ≤ m / 2 ^ k ∧ m / 2 ^ k < 2 ^ 53 := by
    obtain ⟨hleast, hlt⟩ := (Nat.log2_eq_iff hm).1 hk
    constructor
    · rwa [Nat.le_div_iff_mul_le (Nat.two_pow_pos k), ← Nat.pow_add]
    · rwa [Nat.div_lt_iff_lt_mul (Nat.two_pow_pos k), ← Nat.pow_add, (by omega : 53 + k = 52 + k + 1)]
  obtain ⟨hleast, hmost⟩ := roundHalfEven_bounds m (2 ^ k)
  have htarget (m : Nat) (e : Int) : Format.binary64.targetExponent (totalExponent m e) =
      max ((m.log2 : Int) + 1 + e - 53) (-1074) := rfl
  have hfirst : shiftToTargetExponent Format.binary64 m e .exact =
      (ExtendedMantissa.ofMantissaAndAccuracy m .exact >>> k, e + k) := by
    have hshift : (max ((m.log2 : Int) + 1 + e - 53) (-1074) - e).toNat = k := by omega
    rw [shiftToTargetExponent, htarget, shiftToExponent, hshift]
  unfold roundWithAccuracy
  rw [hfirst]
  dsimp only
  rw [roundedMantissa_shiftRight]
  generalize roundHalfEven m (2 ^ k) = q at hleast hmost ⊢
  rcases Nat.lt_or_ge q (2 ^ 53) with hfits | hcarry
  · have hlog := log2_of_leading (by omega) hfits
    have hshift : (max ((q.log2 : Int) + 1 + (e + k) - 53) (-1074) - (e + k)).toNat = 0 := by omega
    have hsecond : shiftToTargetExponent Format.binary64 q (e + k) .exact = (⟨q, false, false⟩, e + k) := by
      rw [shiftToTargetExponent, htarget, shiftToExponent, hshift]
      exact congrArg (Prod.mk _) (Int.add_zero _)
    rw [hsecond]
    exact ⟨q, e + k, by omega, dif_neg (show ¬q = 0 by omega), by omega, hfits, .inl ⟨rfl, rfl⟩⟩
  · obtain rfl : q = 2 ^ 53 := by omega
    have hshift : (max (((2 ^ 53 : Nat).log2 : Int) + 1 + (e + k) - 53) (-1074) - (e + k)).toNat = 1 := by
      rw [Nat.log2_two_pow]
      omega
    have hsecond : shiftToTargetExponent Format.binary64 (2 ^ 53) (e + k) .exact = (⟨2 ^ 52, false, false⟩, e + k + 1) := by
      rw [shiftToTargetExponent, htarget, shiftToExponent, hshift]
      rfl
    rw [hsecond]
    exact ⟨2 ^ 52, e + k + 1, by decide, rfl, by decide, by decide, .inr ⟨rfl, rfl⟩⟩

theorem log2_mul_two_pow {n : Nat} (hn : n ≠ 0) (k : Nat) : (n * 2 ^ k).log2 = n.log2 + k := by
  induction k with
  | zero => rw [Nat.pow_zero, Nat.mul_one, Nat.add_zero]
  | succ k ih =>
    have hpos : n * 2 ^ k ≠ 0 := Nat.mul_ne_zero hn (Nat.two_pow_pos k).ne'
    rw [Nat.pow_succ', Nat.mul_left_comm, Nat.log2_two_mul hpos, ih, Nat.add_assoc]

/-- A mantissa of 53 bits is kept, whatever zeros follow it. -/
theorem round_exact {s : Sign} {m : Nat} {e : Int} (hlead : 2 ^ 52 ≤ m) (hm : m < 2 ^ 53) (he : -1074 ≤ e) (k : Nat) :
    roundWithAccuracy Format.binary64 s (m * 2 ^ k) (e - k) .exact = .finite s m e (by omega) := by
  have hlog : (m * 2 ^ k).log2 = 52 + k := by rw [log2_mul_two_pow (by omega), log2_of_leading hlead hm]
  have hquotient : roundHalfEven (m * 2 ^ k) (2 ^ k) = m := by
    have hmul := roundHalfEven_mul_right m 1 (Nat.two_pow_pos k)
    rwa [Nat.one_mul, roundHalfEven_one] at hmul
  obtain ⟨m', e', h, hround, hlead', -, hvalue⟩ := round_eq (s := s) hlog (by omega : -1074 ≤ e - k + k)
  rw [hquotient] at hvalue
  obtain ⟨rfl, rfl⟩ : e = e' ∧ m = m' := by omega
  exact hround

/-! ## Whole numbers -/

/-- The nearest of the whole numbers that doubles stand for, of two the one with the even mantissa. -/
def nearestDouble (n : Nat) : Nat := roundHalfEven n (2 ^ (n.log2 - 52)) * 2 ^ (n.log2 - 52)

/-- A count of at most 53 bits is packed as it is. -/
theorem ofNat_eq {n : Nat} (hpos : 0 < n) (hn : n < 2 ^ 53) {k : Nat} (hk : n.log2 + k = 52) :
    ∃ h, UnpackedFloat.ofNat Format.binary64 n = .finite .positive (n * 2 ^ k) (-k) h := by
  have hlog : (n * 2 ^ k).log2 = 52 := by rw [log2_mul_two_pow hpos.ne', hk]
  obtain ⟨hlead, hlt⟩ := (Nat.log2_eq_iff (Nat.mul_ne_zero hpos.ne' (Nat.two_pow_pos k).ne')).1 hlog
  refine ⟨by omega, ?_⟩
  show UnpackedFloat.normalize Format.binary64 n 0 .positive = _
  have hcompare : compare (n : Int) 0 = .gt := compare_gt_iff_gt.2 (by omega)
  have hshift : (0 - max ((n.log2 : Int) + 1 + 0 - 53) (-1074)).toNat = k := by omega
  have hdecrease : decreaseExponent n 0 (max ((n.log2 : Int) + 1 + 0 - 53) (-1074)) = (n * 2 ^ k, -(k : Int)) := by
    rw [decreaseExponent, hshift, Nat.shiftLeft_eq, Int.zero_sub]
  unfold UnpackedFloat.normalize
  rw [hcompare]
  show roundWithAccuracy Format.binary64 .positive (decreaseExponent n 0 (max ((n.log2 : Int) + 1 + 0 - 53) (-1074))).1
    (decreaseExponent n 0 (max ((n.log2 : Int) + 1 + 0 - 53) (-1074))).2 .exact = _
  have hround := round_exact (s := .positive) (e := -(k : Int)) hlead hlt (by omega) 0
  rw [Nat.pow_zero, Nat.mul_one, Int.natCast_zero, Int.sub_zero] at hround
  rw [hdecrease, hround]

/-- One is among the powers of ten by which a whole number is multiplied. -/
theorem mul_one_eq_pack (x : Float) : x * Float.ofBits 0x3FF0000000000000 = Float.ofModel (pack (UnpackedFloat.mul
    Format.binary64 x.toModel.unpack (.finite .positive (2 ^ 52) (-52) (by decide)))) := rfl

/-- A count of at most 53 bits is a double. -/
theorem unpack_ofNat_of_lt {n : Nat} (hpos : 0 < n) (hn : n < 2 ^ 53) {k : Nat} (hk : n.log2 + k = 52) :
    ∃ h, (Float.ofNat n).toModel.unpack = .finite .positive (n * 2 ^ k) (-k) h := by
  obtain ⟨h, hofNat⟩ := ofNat_eq hpos hn hk
  have hlog : (n * 2 ^ k).log2 = 52 := by rw [log2_mul_two_pow hpos.ne', hk]
  obtain ⟨hlead, hlt⟩ := (Nat.log2_eq_iff h.ne').1 hlog
  have hmod : n.toUInt64.toNat = n := Nat.mod_eq_of_lt (by omega)
  have hfloat : n.toUInt64.toFloat = Float.ofModel (pack (UnpackedFloat.ofNat Format.binary64 n.toUInt64.toNat)) := rfl
  have hvalue : Float.ofNat n = n.toUInt64.toFloat * Float.ofBits 0x3FF0000000000000 := by
    show Float.ofScientific n false 0 = _
    unfold Float.ofScientific
    exact dif_pos ⟨hn, by decide⟩
  refine ⟨h, ?_⟩
  rw [hvalue, mul_one_eq_pack, hfloat, hmod, hofNat, unpack_pack h hlt (by omega) (by omega) (.inr hlead)]
  show (Float.ofModel (pack (roundWithAccuracy Format.binary64 .positive (n * 2 ^ k * 2 ^ 52) (-k - (52 : Nat)) .exact))
    ).toModel.unpack = _
  rw [round_exact hlead hlt (by omega), unpack_pack h hlt (by omega) (by omega) (.inr hlead)]

/-- A count of more bits is rounded. -/
theorem unpack_ofNat_of_le {n : Nat} (hleast : 2 ^ 53 ≤ n) (hn : n < 2 ^ 64) : ∃ m e h,
    (Float.ofNat n).toModel.unpack = .finite .positive m e h ∧ 0 ≤ e ∧ m * 2 ^ e.toNat = nearestDouble n := by
  have hlog : n.log2 < 64 := (Nat.log2_lt (by omega)).2 hn
  have hlog' : 53 ≤ n.log2 := (Nat.le_log2 (by omega)).2 hleast
  obtain ⟨k, hk⟩ : ∃ k, n.log2 = 52 + k := ⟨n.log2 - 52, by omega⟩
  have hvalue : Float.ofNat n = Float.ofModel (pack (roundWithAccuracy Format.binary64 .positive (n * 2 ^ 53) (-53) .exact)) := by
    have hscientific : UnpackedFloat.ofScientific Format.binary64 n 0 =
        roundWithAccuracy Format.binary64 (.positive * .positive) (n <<< 53 * 1) (-53 + 0) .exact := by
      unfold UnpackedFloat.ofScientific
      rw [dif_neg (by omega), if_neg (by decide), if_neg, if_pos (by decide)]
      · rfl
      · show ¬(0 : Int) < -(2 ^ 11 + (n.log2 : Int))
        omega
    rw [Nat.shiftLeft_eq, Nat.mul_one, Int.add_zero] at hscientific
    show Float.ofScientific n false 0 = _
    unfold Float.ofScientific
    rw [dif_neg fun hsmall => absurd hsmall.1 (by omega)]
    exact congrArg (fun u => Float.ofModel (pack u)) hscientific
  have hquotient : roundHalfEven (n * 2 ^ 53) (2 ^ (k + 53)) = roundHalfEven n (2 ^ k) := by
    rw [Nat.pow_add, roundHalfEven_mul_right _ _ (by decide)]
  have hshifted : (n * 2 ^ 53).log2 = 52 + (k + 53) := by rw [log2_mul_two_pow (by omega), hk, Nat.add_assoc]
  obtain ⟨m, e, h, hround, hlead, hm, hcases⟩ :=
    round_eq (s := .positive) hshifted (by omega : -1074 ≤ -53 + ((k + 53 : Nat) : Int))
  rw [hquotient] at hcases
  refine ⟨m, e, h, ?_, by omega, ?_⟩
  · rw [hvalue, hround, unpack_pack h hm (by omega) (by omega) (.inr hlead)]
  · rw [nearestDouble, hk, Nat.add_sub_cancel_left]
    rcases hcases with ⟨he, hm⟩ | ⟨he, hm⟩
    · rw [hm, (by omega : e.toNat = k)]
    · rw [← hm, (by omega : e.toNat = k + 1), Nat.pow_succ', ← Nat.mul_assoc, Nat.mul_comm m 2]

/-! ## Doubles read as whole numbers -/

theorem ofBits_eq (x : Float) : Dyadic.ofBits x.toBits =
    if (exponentBits x).toNat = 0 then ⟨(mantissaBits x).toNat, -1074, false⟩
    else ⟨(mantissaBits x).toNat + 2 ^ 52, ((exponentBits x).toNat : Int) - 1075,
      (mantissaBits x).toNat == 0 && (exponentBits x).toNat > 1⟩ := by
  have hexponent : ((x.toBits >>> 52) &&& 0x7FF).toNat = (exponentBits x).toNat := by
    rw [toNat_exponentBits, UInt64.toNat_and, UInt64.toNat_shiftRight, Nat.shiftRight_eq_div_pow]
    exact Nat.and_two_pow_sub_one_eq_mod _ 11
  have hmantissa : (x.toBits &&& 0xFFFFFFFFFFFFF).toNat = (mantissaBits x).toNat := by
    rw [toNat_mantissaBits, UInt64.toNat_and]
    exact Nat.and_two_pow_sub_one_eq_mod _ 52
  rw [Dyadic.ofBits, hexponent, hmantissa]
  rfl

/-- The parts of a double are what it unpacks to. -/
theorem ofBits_of_unpack {x : Float} {s : Sign} {m : Nat} {e : Int} {h : 0 < m} (hx : x.toModel.unpack = .finite s m e h) :
    (Dyadic.ofBits x.toBits).mantissa = m ∧ (Dyadic.ofBits x.toBits).exponent = e := by
  obtain ⟨hm, he, -, hlead, hmagnitude⟩ := magnitude_of_unpack hx
  have hbits := magnitude_eq x
  have hbelow : (mantissaBits x).toNat < 2 ^ 52 := BitVec.isLt _
  rw [ofBits_eq]
  split
  · show (mantissaBits x).toNat = m ∧ -1074 = e
    omega
  · show (mantissaBits x).toNat + 2 ^ 52 = m ∧ ((exponentBits x).toNat : Int) - 1075 = e
    omega

/-- The whole number that a mantissa and an exponent make. -/
theorem whole?_eq_some {d : Dyadic} {n : Nat} (h : d.mantissa * 2 ^ d.exponent.toNat = n * 2 ^ (-d.exponent).toNat) :
    d.whole? = some n := by
  have hpow (k : Nat) : Nat.pow 2 k = 2 ^ k := rfl
  unfold Dyadic.whole?
  by_cases he : 0 ≤ d.exponent
  · rw [if_pos he, hpow, (by omega : d.exponent.natAbs = d.exponent.toNat), h, (by omega : (-d.exponent).toNat = 0), Nat.pow_zero,
      Nat.mul_one]
  · rw [(by omega : d.exponent.toNat = 0), Nat.pow_zero, Nat.mul_one] at h
    rw [if_neg he, hpow, (by omega : d.exponent.natAbs = (-d.exponent).toNat), h, if_pos (Nat.mul_mod_left _ _),
      Nat.mul_div_cancel _ (Nat.two_pow_pos _)]

/-- A double is read as the whole number that it unpacks to. -/
theorem wholeNumber?_of_unpack {x : Float} {m n : Nat} {e : Int} {h : 0 < m} (hx : x.toModel.unpack = .finite .positive m e h)
    (hvalue : m * 2 ^ e.toNat = n * 2 ^ (-e).toNat) : wholeNumber? x = some n := by
  have hfinite : x.isFinite = true := by
    show x.toModel.unpack.isFinite = true
    rw [hx]
    rfl
  have hsign : 0.0 ≤ x := by
    have hdef : (0.0 ≤ x) = ((0.0 : Float).le x = true) := rfl
    rw [hdef, Float.le, decide_eq_true_iff]
    show ((0.0 : Float).toModel.unpack.compare x.toModel.unpack).any (·.isLE) = true
    rw [hx]
    rfl
  obtain ⟨hmantissa, hexponent⟩ := ofBits_of_unpack hx
  rw [wholeNumber?, hfinite, decide_eq_true hsign, Bool.and_self, if_pos rfl]
  refine whole?_eq_some ?_
  rwa [hmantissa, hexponent]

/-- The double of a count of 64 bits is read as the nearest of the numbers that doubles stand for. -/
theorem wholeNumber?_ofNat {n : Nat} (hpos : 0 < n) (hn : n < 2 ^ 64) : wholeNumber? (Float.ofNat n) = some (nearestDouble n) := by
  rcases Nat.lt_or_ge n (2 ^ 53) with hsmall | hlarge
  · have hlog : n.log2 < 53 := (Nat.log2_lt hpos.ne').2 hsmall
    obtain ⟨k, hk⟩ : ∃ k, n.log2 + k = 52 := ⟨52 - n.log2, by omega⟩
    obtain ⟨h, hunpack⟩ := unpack_ofNat_of_lt hpos hsmall hk
    refine wholeNumber?_of_unpack hunpack ?_
    rw [nearestDouble, (by omega : n.log2 - 52 = 0), Nat.pow_zero, roundHalfEven_one, Nat.mul_one,
      (by omega : (-(k : Int)).toNat = 0), Nat.pow_zero, Nat.mul_one, Int.neg_neg, Int.toNat_natCast]
  · obtain ⟨m, e, h, hunpack, he, hvalue⟩ := unpack_ofNat_of_le hlarge hn
    refine wholeNumber?_of_unpack hunpack ?_
    rw [hvalue, (by omega : (-e).toNat = 0), Nat.pow_zero, Nat.mul_one]

/-- A count of 64 bits is a finite double. -/
theorem isFinite_ofNat {n : Nat} (hn : n < 2 ^ 64) : (Float.ofNat n).isFinite = true := by
  rcases Nat.eq_zero_or_pos n with rfl | hpos
  · decide
  · have hwhole := wholeNumber?_ofNat hpos hn
    by_contra hinfinite
    rw [wholeNumber?, Bool.eq_false_iff.2 hinfinite] at hwhole
    exact absurd hwhole (by simp)

/-! ## Counts that are doubles -/

/-- A whole number that a double stands for: at most 53 binary digits, followed by zeros. -/
def IsDouble (n : Nat) : Prop := ∃ m k, m < 2 ^ 53 ∧ n = m * 2 ^ k

theorem IsDouble.of_wholeNumber? {x : Float} {n : Nat} (h : wholeNumber? x = some n) : IsDouble n := by
  have hmantissa : (Dyadic.ofBits x.toBits).mantissa < 2 ^ 53 := by
    have hbelow : (mantissaBits x).toNat < 2 ^ 52 := BitVec.isLt _
    rw [ofBits_eq]
    split
    · show (mantissaBits x).toNat < 2 ^ 53
      omega
    · show (mantissaBits x).toNat + 2 ^ 52 < 2 ^ 53
      omega
  unfold wholeNumber? at h
  split at h
  · generalize Dyadic.ofBits x.toBits = d at h hmantissa
    unfold Dyadic.whole? at h
    split at h
    · exact ⟨d.mantissa, d.exponent.natAbs, hmantissa, (Option.some.inj h).symm⟩
    · split at h
      · refine ⟨n, 0, ?_, (Nat.mul_one n).symm⟩
        rw [← Option.some.inj h]
        exact Nat.lt_of_le_of_lt (Nat.div_le_self _ _) hmantissa
      · exact absurd h (by simp)
  · exact absurd h (by simp)

/-- A double stands for a count exactly if the nearest double of the count does. -/
theorem nearestDouble_eq_iff {n : Nat} : nearestDouble n = n ↔ IsDouble n := by
  constructor
  · intro h
    rw [nearestDouble] at h
    obtain ⟨k, hk⟩ : ∃ k, n.log2 - 52 = k := ⟨_, rfl⟩
    rw [hk] at h
    have hquotient : n / 2 ^ k < 2 ^ 53 := by
      rw [Nat.div_lt_iff_lt_mul (Nat.two_pow_pos k), ← Nat.pow_add]
      exact Nat.lt_of_lt_of_le Nat.lt_log2_self (Nat.pow_le_pow_right (by decide) (by omega))
    have hmost := (roundHalfEven_bounds n (2 ^ k)).2
    rcases Nat.lt_or_ge (roundHalfEven n (2 ^ k)) (2 ^ 53) with hfits | hcarry
    · exact ⟨_, k, hfits, h.symm⟩
    · have heq : roundHalfEven n (2 ^ k) = 2 ^ 53 := by omega
      rw [heq] at h
      refine ⟨2 ^ 52, k + 1, by decide, ?_⟩
      rw [← h, ← Nat.pow_add, ← Nat.pow_add, (by omega : 52 + (k + 1) = 53 + k)]
  · rintro ⟨m, j, hm, rfl⟩
    rcases Nat.eq_zero_or_pos m with rfl | hpos
    · rw [Nat.zero_mul]
      decide
    have hlog : m.log2 < 53 := (Nat.log2_lt hpos.ne').2 hm
    obtain ⟨i, hi⟩ : ∃ i, j = i + ((m * 2 ^ j).log2 - 52) := by
      rw [log2_mul_two_pow hpos.ne']
      exact ⟨j - (m.log2 + j - 52), by omega⟩
    have hsplit : m * 2 ^ j = m * 2 ^ i * 2 ^ ((m * 2 ^ j).log2 - 52) := by rw [Nat.mul_assoc, ← Nat.pow_add, ← hi]
    have hexact := roundHalfEven_mul_right (m * 2 ^ i) 1 (Nat.two_pow_pos ((m * 2 ^ j).log2 - 52))
    rw [← hsplit, Nat.one_mul, roundHalfEven_one] at hexact
    rw [nearestDouble, hexact, ← hsplit]

instance : DecidablePred IsDouble := fun n => decidable_of_iff (nearestDouble n = n) nearestDouble_eq_iff

/-- The first count that no double stands for. -/
example : ¬IsDouble (2 ^ 53 + 1) ∧ nearestDouble (2 ^ 53 + 1) = 2 ^ 53 := by decide

theorem nearestDouble_pos {n : Nat} (hpos : 0 < n) : 0 < nearestDouble n := by
  obtain ⟨hleast, -⟩ := roundHalfEven_bounds n (2 ^ (n.log2 - 52))
  have hquotient : 0 < n / 2 ^ (n.log2 - 52) :=
    Nat.div_pos ((Nat.le_log2 hpos.ne').1 (Nat.sub_le _ _)) (Nat.two_pow_pos _)
  exact Nat.mul_pos (by omega) (Nat.two_pow_pos _)

end EquityScreen
