import SharedBoard.Proofs.OrderKey.Binary64

/-! Doubles with a full mantissa of 53 binary places. Rounding gives a full mantissa if there are
places enough, and a number with a full mantissa is read back as it was packed.
-/

namespace SharedBoard.Rounding

open Float.Model

-----------------------------------------------------------------------------------------
-- Full mantissas
-----------------------------------------------------------------------------------------

theorem log2_eq_iff {mantissa : Nat}
    : mantissa.log2 = 52 ↔ 2 ^ 52 ≤ mantissa ∧ mantissa < 2 ^ 53 := by
  rcases Nat.eq_zero_or_pos mantissa with rfl | positive
  · simp
  · exact Nat.log2_eq_iff positive.ne'

/-- The whole part of a mantissa that is cut to full length. -/
theorem log2_div {mantissa : Nat} (long : 52 ≤ mantissa.log2)
    : (mantissa / 2 ^ (mantissa.log2 - 52)).log2 = 52 := by
  have positive : mantissa ≠ 0 := by rintro rfl; simp at long
  have low := Nat.log2_self_le positive
  have high := @Nat.lt_log2_self mantissa
  rw [log2_eq_iff, Nat.le_div_iff_mul_le (by positivity), Nat.div_lt_iff_lt_mul (by positivity),
    ← pow_add, ← pow_add]
  exact ⟨by rwa [show 52 + (mantissa.log2 - 52) = mantissa.log2 by omega],
    by rwa [show 53 + (mantissa.log2 - 52) = mantissa.log2 + 1 by omega]⟩

-----------------------------------------------------------------------------------------
-- Rounding to full mantissas
-----------------------------------------------------------------------------------------

theorem mantissa_ofMantissaAndAccuracy (mantissa : Nat) (accuracy : UnpackedFloat.Accuracy)
    : (UnpackedFloat.ExtendedMantissa.ofMantissaAndAccuracy mantissa accuracy).mantissa
      = mantissa := by
  rcases accuracy with _ | ⟨_ | _ | _⟩ <;> rfl

/-- A mantissa is cut by halving it, by induction on the number of places. -/
theorem mantissa_shiftRight (extended : UnpackedFloat.ExtendedMantissa) (places : Nat)
    : (extended >>> places).mantissa = extended.mantissa / 2 ^ places := by
  induction places with
  | zero => exact (Nat.div_one _).symm
  | succ places ih =>
      change (extended >>> places).mantissa / 2 = _
      rw [ih, Nat.div_div_eq_div_mul, pow_succ]

/-- A mantissa is rounded down or up. -/
theorem roundedMantissa_eq_or (extended : UnpackedFloat.ExtendedMantissa)
    : extended.roundedMantissa = extended.mantissa
      ∨ extended.roundedMantissa = extended.mantissa + 1 := by
  obtain ⟨mantissa, _ | _, _ | _⟩ := extended
  · exact .inl rfl
  · exact .inl rfl
  · change mantissa + mantissa % 2 = mantissa ∨ mantissa + mantissa % 2 = mantissa + 1
    omega
  · exact .inr rfl

/-- The exponent that gives a number a full mantissa, if it is not too small. -/
theorem targetExponent_eq (total : Int)
    : Format.binary64.targetExponent total = max (total - 53) (-1074) :=
  rfl

/-- Numbers with long mantissas are cut to full ones, if they are not too small. -/
theorem shiftToTargetExponent_eq {mantissa : Nat} {exponent : Int}
    (accuracy : UnpackedFloat.Accuracy) (long : 52 ≤ mantissa.log2) (low : -1074 ≤ exponent)
    : UnpackedFloat.shiftToTargetExponent Format.binary64 mantissa exponent accuracy
      = (UnpackedFloat.ExtendedMantissa.ofMantissaAndAccuracy mantissa accuracy
          >>> (mantissa.log2 - 52), exponent + (mantissa.log2 - 52 : Nat)) := by
  have target : Format.binary64.targetExponent (totalExponent mantissa exponent)
      = exponent + (mantissa.log2 - 52 : Nat) := by
    rw [targetExponent_eq, totalExponent]
    omega
  rw [UnpackedFloat.shiftToTargetExponent, UnpackedFloat.shiftToExponent, target]
  congr 2 <;> omega

/-- A number with a long mantissa is rounded to one with a full mantissa. It is cut and rounded down
or up, and cut once more if it gets too long by that.
-/
theorem exists_roundWithAccuracy {mantissa : Nat} {exponent : Int} (sign : UnpackedFloat.Sign)
    (accuracy : UnpackedFloat.Accuracy) (long : 52 ≤ mantissa.log2) (low : -1074 ≤ exponent)
    : ∃ kept rounded last positive,
        UnpackedFloat.roundWithAccuracy Format.binary64 sign mantissa exponent accuracy
        = .finite sign rounded last positive
        ∧ rounded.log2 = 52
        ∧ (kept = mantissa / 2 ^ (mantissa.log2 - 52)
          ∨ kept = mantissa / 2 ^ (mantissa.log2 - 52) + 1)
        ∧ (rounded = kept ∧ last = exponent + (mantissa.log2 - 52 : Nat)
          ∨ 2 * rounded = kept ∧ last = exponent + (mantissa.log2 - 52 : Nat) + 1) := by
  have cut_eq := shiftToTargetExponent_eq accuracy long low
  have cutMantissa := mantissa_shiftRight
    (UnpackedFloat.ExtendedMantissa.ofMantissaAndAccuracy mantissa accuracy) (mantissa.log2 - 52)
  rw [mantissa_ofMantissaAndAccuracy] at cutMantissa
  generalize UnpackedFloat.ExtendedMantissa.ofMantissaAndAccuracy mantissa accuracy
    >>> (mantissa.log2 - 52) = cut at cut_eq cutMantissa
  have roundedOf := roundedMantissa_eq_or cut
  have full := log2_eq_iff.mp (log2_div long)
  rw [cutMantissa] at roundedOf
  generalize mantissa / 2 ^ (mantissa.log2 - 52) = whole at roundedOf full
  have keptLong : 52 ≤ cut.roundedMantissa.log2 :=
    (Nat.le_log2 (by omega)).mpr (by omega)
  have roundedFull := log2_div keptLong
  have roundedPositive : cut.roundedMantissa / 2 ^ (cut.roundedMantissa.log2 - 52) ≠ 0 := by
    intro zero
    simp [zero] at roundedFull
  refine ⟨cut.roundedMantissa, _,
    exponent + (mantissa.log2 - 52 : Nat) + (cut.roundedMantissa.log2 - 52 : Nat),
    Nat.pos_of_ne_zero roundedPositive, ?_, roundedFull, roundedOf, ?_⟩
  · have last_eq := shiftToTargetExponent_eq .exact keptLong
      (show -1074 ≤ exponent + (mantissa.log2 - 52 : Nat) by omega)
    simp only [UnpackedFloat.roundWithAccuracy, cut_eq, last_eq, mantissa_shiftRight,
      mantissa_ofMantissaAndAccuracy, dif_neg roundedPositive]
  · rcases Nat.lt_or_ge cut.roundedMantissa (2 ^ 53) with short | carried
    · have same : cut.roundedMantissa.log2 = 52 := log2_eq_iff.mpr (by omega)
      exact .inl (by simp [same])
    · obtain power : cut.roundedMantissa = 2 ^ 53 := by omega
      have long : cut.roundedMantissa.log2 = 53 := by rw [power, Nat.log2_two_pow]
      rw [long, power]
      exact .inr ⟨by norm_num, rfl⟩

/-- A full mantissa is left as it is. -/
theorem roundWithAccuracy_exact {mantissa : Nat} {exponent : Int} (sign : UnpackedFloat.Sign)
    (positive : 0 < mantissa) (normal : mantissa.log2 = 52) (low : -1074 ≤ exponent)
    : UnpackedFloat.roundWithAccuracy Format.binary64 sign mantissa exponent .exact
      = .finite sign mantissa exponent positive := by
  have same : UnpackedFloat.shiftToTargetExponent Format.binary64 mantissa exponent .exact
      = (⟨mantissa, false, false⟩, exponent) := by
    rw [shiftToTargetExponent_eq .exact normal.ge low, normal]
    exact congrArg _ (Int.add_zero exponent)
  have unrounded
      : UnpackedFloat.ExtendedMantissa.roundedMantissa ⟨mantissa, false, false⟩ = mantissa := rfl
  simp only [UnpackedFloat.roundWithAccuracy, same, unrounded, dif_neg positive.ne']

-----------------------------------------------------------------------------------------
-- Packing
-----------------------------------------------------------------------------------------

/-- The sign of a packed number is read back. -/
theorem ofBitVec_unpackSign_packComponents (sign : UnpackedFloat.Sign) (exponent : BitVec 11)
    (mantissa : BitVec 52)
    : UnpackedFloat.Sign.ofBitVec (UnpackedFloat.unpackSign
        (UnpackedFloat.packComponents Format.binary64 sign exponent mantissa)) = sign := by
  simp only [UnpackedFloat.unpackSign, UnpackedFloat.packComponents, BitVec.extractLsb]
  rw [BitVec.extractLsb'_append_eq_of_le (by omega),
    BitVec.extractLsb'_append_eq_of_le (by omega)]
  cases sign <;> rfl

theorem toNat_append_ofNat {mantissa : Nat} (normal : mantissa.log2 = 52)
    : (1#1 ++ BitVec.ofNat 52 mantissa).toNat = mantissa := by
  have positive : mantissa ≠ 0 := by rintro rfl; simp at normal
  have bounds := (Nat.log2_eq_iff positive).mp normal
  rw [BitVec.toNat_append, ← Nat.shiftLeft_add_eq_or_of_lt (BitVec.isLt _), BitVec.toNat_ofNat,
    BitVec.toNat_ofNat, Nat.shiftLeft_eq]
  omega

/-- A number with a full mantissa is packed as its sign, its biased exponent and its mantissa less the
highest place.
-/
theorem pack_eq {sign : UnpackedFloat.Sign} {mantissa : Nat} {exponent : Int}
    (positive : 0 < mantissa) (normal : mantissa.log2 = 52) (high : exponent ≤ 971)
    : UnpackedFloat.pack Format.binary64 (.finite sign mantissa exponent positive)
      = UnpackedFloat.packComponents Format.binary64 sign
          (BitVec.ofNat 11 (exponent + 1075).toNat) (BitVec.ofNat 52 mantissa) := by
  have biased : exponent + (Format.binary64.exponentBias : Int)
      + (Format.binary64.mantissaBitsWithoutImplicit : Int) = exponent + 1075 :=
    Int.add_assoc exponent 1023 52
  rw [UnpackedFloat.pack]
  dsimp only
  rw [biased, if_neg (by norm_num; omega), if_pos (by rw [normal]; rfl)]

/-- A number with a full mantissa is read back as it was packed. -/
theorem unpack_pack {sign : UnpackedFloat.Sign} {mantissa : Nat} {exponent : Int}
    (positive : 0 < mantissa) (normal : mantissa.log2 = 52) (low : -1074 ≤ exponent)
    (high : exponent ≤ 971)
    : (Float.Model.pack (.finite sign mantissa exponent positive)).unpack
      = .finite sign mantissa exponent positive := by
  have field : (BitVec.ofNat 11 (exponent + 1075).toNat).toNat = (exponent + 1075).toNat := by
    rw [BitVec.toNat_ofNat, Nat.mod_eq_of_lt (by omega)]
  have notHighest : BitVec.ofNat 11 (exponent + 1075).toNat ≠ -1#11 := by
    rw [← BitVec.toNat_inj.ne, field]
    simp
    omega
  have notLowest : BitVec.ofNat 11 (exponent + 1075).toNat ≠ 0#11 := by
    rw [← BitVec.toNat_inj.ne, field]
    simp
    omega
  have bias : (Format.binary64.exponentBias : Int)
      + (Format.binary64.mantissaBitsWithoutImplicit : Int) = 1075 := rfl
  change UnpackedFloat.unpack Format.binary64 (UnpackedFloat.pack Format.binary64 _) = _
  rw [pack_eq positive normal high]
  simp only [UnpackedFloat.unpack, UnpackedFloat.unpackExponent_packComponents,
    UnpackedFloat.unpackMantissa_packComponents, if_neg notHighest, if_neg notLowest, field, bias,
    ofBitVec_unpackSign_packComponents, toNat_append_ofNat normal]
  congr 1
  omega

end SharedBoard.Rounding
