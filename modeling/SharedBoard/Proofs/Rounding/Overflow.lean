import SharedBoard.Proofs.Rounding.Quotient

/-! Doubles that stay within their range. A natural number is rounded to one that is bounded by the
next number with a full mantissa. A product below the greatest double does not overflow, and neither
does a quotient with a divisor of ten or more.
-/

namespace SharedBoard.Rounding

open Float.Model

-----------------------------------------------------------------------------------------
-- Finite doubles
-----------------------------------------------------------------------------------------

/-- The exponent and the mantissa at the place of a finite number are within their ranges. -/
theorem bounds_of_fieldPlace {exponent mantissa : Nat} (exponentRange : exponent < 2048)
    (mantissaRange : mantissa < 4503599627370496)
    (finite : (OrderKey.fieldPlace exponent mantissa).1 = 1)
    : -1074 ≤ (OrderKey.fieldPlace exponent mantissa).2.1
      ∧ (OrderKey.fieldPlace exponent mantissa).2.1 ≤ 971
      ∧ (OrderKey.fieldPlace exponent mantissa).2.2 < 9007199254740992 := by
  unfold OrderKey.fieldPlace at finite ⊢
  split at finite
  · simp at finite
  · split at finite
    · split at finite
      · simp at finite
      · simp_all
        omega
    · simp_all
      omega

/-- The parts of a finite double that is not zero are within their ranges, by its place. -/
theorem bounds_of_unpack {value : Float} {sign : UnpackedFloat.Sign} {mantissa : Nat}
    {exponent : Int} {positive : 0 < mantissa}
    (parts : value.toModel.unpack = .finite sign mantissa exponent positive)
    : mantissa < 2 ^ 53 ∧ -1074 ≤ exponent ∧ exponent ≤ 971 := by
  change UnpackedFloat.unpack Format.binary64 value.toModel.toBits.toBitVec = _ at parts
  have place := @OrderKey.rank_unpack value.toModel.toBits.toBitVec (by rw [parts]; rfl)
  rw [parts, OrderKey.toNat_unpackExponent, OrderKey.toNat_unpackMantissa] at place
  have nonneg := OrderKey.fieldPlace_nonneg
    (value.toModel.toBits.toBitVec.toNat / 4503599627370496 % 2048)
    (value.toModel.toBits.toBitVec.toNat % 4503599627370496)
  have bounds := bounds_of_fieldPlace
    (Nat.mod_lt (value.toModel.toBits.toBitVec.toNat / 4503599627370496) (by decide))
    (Nat.mod_lt value.toModel.toBits.toBitVec.toNat (by decide))
  generalize OrderKey.fieldPlace _ _ = field at place nonneg bounds
  obtain ⟨level, fieldExponent, fieldMantissa⟩ := field
  dsimp only at nonneg bounds
  split at place <;> cases sign <;>
    simp only [OrderKey.rank, OrderKey.opposite, Prod.mk.injEq] at place <;>
    omega

/-- A pattern is finite if its exponent is not the highest one. -/
theorem isFinite_unpack {bits : BitVec Format.binary64.numBits}
    (low : UnpackedFloat.unpackExponent bits ≠ -1#11)
    : (UnpackedFloat.unpack Format.binary64 bits).isFinite = true := by
  simp only [UnpackedFloat.unpack, if_neg low]
  split
  · split <;> rfl
  · rfl

/-- What is packed from a finite number within the range of exponents is finite. -/
theorem isFinite_pack {sign : UnpackedFloat.Sign} {mantissa : Nat} {exponent : Int}
    {positive : 0 < mantissa} (within : exponent ≤ 971)
    : (Float.ofModel (pack (.finite sign mantissa exponent positive))).isFinite = true := by
  change (UnpackedFloat.unpack Format.binary64 (UnpackedFloat.pack Format.binary64 _)).isFinite
    = true
  have biased : exponent + (Format.binary64.exponentBias : Int)
      + (Format.binary64.mantissaBitsWithoutImplicit : Int) = exponent + 1075 :=
    Int.add_assoc exponent 1023 52
  apply isFinite_unpack
  rw [UnpackedFloat.pack]
  dsimp only
  rw [biased, if_neg (by norm_num; omega)]
  split
  · rw [UnpackedFloat.unpackExponent_packComponents, ← BitVec.toNat_inj.ne]
    simp
    omega
  · rw [UnpackedFloat.unpackExponent_packComponents]
    decide

theorem isFinite_pack_zero (sign : UnpackedFloat.Sign)
    : (Float.ofModel (pack (.zero sign))).isFinite = true := by
  cases sign <;> decide

/-- A finite double has a finite negative. -/
theorem isFinite_neg {value : Float} (finite : value.isFinite = true)
    : (-value).isFinite = true := by
  change value.toModel.unpack.isFinite = true at finite
  change (Float.ofModel (pack value.toModel.unpack.neg)).isFinite = true
  cases parts : value.toModel.unpack with
  | infinity sign => simp [parts, UnpackedFloat.isFinite] at finite
  | notANumber => simp [parts, UnpackedFloat.isFinite] at finite
  | zero sign => exact isFinite_pack_zero _
  | finite sign mantissa exponent positive => exact isFinite_pack (bounds_of_unpack parts).2.2

theorem isInf_of_isFinite {value : Float} (finite : value.isFinite = true)
    : value.isInf = false := by
  change value.toModel.unpack.isFinite = true at finite
  change value.toModel.unpack.isInf = false
  cases parts : value.toModel.unpack <;>
    simp_all [UnpackedFloat.isFinite, UnpackedFloat.isInf]

-----------------------------------------------------------------------------------------
-- Natural numbers
-----------------------------------------------------------------------------------------

/-- The greatest that a number may be rounded to: itself if it fits into a mantissa, and the next
number with a full mantissa if not.
-/
def roundedUp (number : Nat) : Nat :=
  if number < 2 ^ 53 then number
  else (number / 2 ^ (number.log2 - 52) + 1) * 2 ^ (number.log2 - 52)

theorem le_roundedUp (number : Nat) : number ≤ roundedUp number := by
  unfold roundedUp
  split
  · exact le_rfl
  · exact ((Nat.div_lt_iff_lt_mul (by positivity)).mp (Nat.lt_succ_self _)).le

/-- Greater numbers are not rounded to less: what the greater of two long ones is rounded to is a
multiple of the last place of the other, and beyond it.
-/
theorem roundedUp_mono {low high : Nat} (le : low ≤ high) : roundedUp low ≤ roundedUp high := by
  rcases Nat.lt_or_ge low (2 ^ 53) with short | long
  · rw [roundedUp, if_pos short]
    exact le.trans (le_roundedUp high)
  · have highLong : ¬high < 2 ^ 53 := by omega
    have beyond : high < roundedUp high := by
      rw [roundedUp, if_neg highLong]
      exact (Nat.div_lt_iff_lt_mul (by positivity)).mp (Nat.lt_succ_self _)
    have places : low.log2 ≤ high.log2 := (Nat.le_log2 (by omega)).mpr
      ((Nat.log2_self_le (by omega)).trans le)
    have multiple : (roundedUp high) / 2 ^ (low.log2 - 52) * 2 ^ (low.log2 - 52)
        = roundedUp high := by
      apply Nat.div_mul_cancel
      rw [roundedUp, if_neg highLong]
      exact Dvd.dvd.mul_left (Nat.pow_dvd_pow 2 (by omega)) _
    rw [← multiple] at beyond ⊢
    rw [roundedUp, if_neg long.not_gt]
    exact Nat.mul_le_mul_right _
      (Nat.succ_le_of_lt ((Nat.div_lt_iff_lt_mul (by positivity)).mpr (le.trans_lt beyond)))

/-- A number that was rounded to a double, with a full mantissa. -/
structure RoundedTo (number : Nat) (value : Float) (mantissa : Nat) (exponent : Int) : Prop where
  parts : ∃ positive, value.toModel.unpack = .finite .positive mantissa exponent positive
  full : mantissa.log2 = 52
  low : -52 ≤ exponent
  least : ((min number (2 ^ 52) : Nat) : ℚ) ≤ mantissa * 2 ^ exponent
  most : (mantissa : ℚ) * 2 ^ exponent ≤ roundedUp number

theorem RoundedTo.isFinite {number : Nat} {value : Float} {mantissa : Nat} {exponent : Int}
    (rounded : RoundedTo number value mantissa exponent)
    : value.isFinite = true := by
  obtain ⟨positive, parts⟩ := rounded.parts
  change value.toModel.unpack.isFinite = true
  rw [parts]
  rfl

theorem log2_mul_two_pow {number : Nat} (positive : 0 < number) (places : Nat)
    : (number * 2 ^ places).log2 = number.log2 + places := by
  have nonzero : number * 2 ^ places ≠ 0 := (Nat.mul_pos positive (by positivity)).ne'
  rw [Nat.log2_eq_iff nonzero, pow_add, show number.log2 + places + 1 = number.log2 + 1 + places by
    omega, pow_add]
  exact ⟨Nat.mul_le_mul_right _ (Nat.log2_self_le positive.ne'),
    Nat.mul_lt_mul_of_pos_right Nat.lt_log2_self (by positivity)⟩

/-- A number that fits into a mantissa is not rounded. -/
theorem roundedTo_of_short {number : Nat} {value : Float} (positive : 0 < number)
    (short : number < 2 ^ 53)
    (parts : value.toModel.unpack
      = .finite .positive (full number) (number.log2 - 52) (full_pos positive))
    : RoundedTo number value (full number) (number.log2 - 52) := by
  have places : number.log2 < 53 := (Nat.log2_lt positive.ne').mpr short
  have exact : (full number : ℚ) * 2 ^ ((number.log2 : Int) - 52) = number := by
    rw [full, show (number.log2 : Int) - 52 = -(52 - number.log2 : Nat) by omega, zpow_neg,
      zpow_natCast]
    push_cast
    field_simp
  refine ⟨⟨_, parts⟩, log2_full positive short, by omega, ?_, ?_⟩
  · rw [exact]
    exact_mod_cast Nat.min_le_left ..
  · rw [exact, roundedUp, if_pos short]

/-- A number that is too long for a mantissa is rounded to one that is full, whether or not it was
given with more places.
-/
theorem roundedTo_of_long {number : Nat} (long : 2 ^ 53 ≤ number)
    (within : roundedUp number < 2 ^ 1024) (places : Nat) (few : places ≤ 1000)
    : ∃ mantissa exponent,
        RoundedTo number
          (.ofModel (pack (UnpackedFloat.roundWithAccuracy Format.binary64 .positive
            (number * 2 ^ places) (-places) .exact)))
          mantissa exponent := by
  have positive : 0 < number := by omega
  have log : (number * 2 ^ places).log2 = number.log2 + places := log2_mul_two_pow positive places
  have length : 53 ≤ number.log2 := (Nat.le_log2 positive.ne').mpr long
  obtain ⟨kept, rounded, last, nonzero, same, full, keptEq, cut⟩ :=
    exists_roundWithAccuracy .positive .exact (show 52 ≤ (number * 2 ^ places).log2 by omega)
      (show -1074 ≤ -(places : Int) by omega)
  have whole : number * 2 ^ places / 2 ^ ((number * 2 ^ places).log2 - 52)
      = number / 2 ^ (number.log2 - 52) := by
    rw [log, show number.log2 + places - 52 = number.log2 - 52 + places by omega, pow_add,
      Nat.mul_div_mul_right _ _ (by positivity)]
  rw [whole] at keptEq
  rw [log, show ((number.log2 + places - 52 : Nat) : Int) = (number.log2 - 52 : Nat) + places by
    omega] at cut
  have most : kept * 2 ^ (number.log2 - 52) ≤ roundedUp number := by
    rw [roundedUp, if_neg long.not_gt]
    exact Nat.mul_le_mul_right _ (by omega)
  have least : 2 ^ 52 ≤ rounded := (log2_eq_iff.mp full).1
  generalize number.log2 - 52 = cutPlaces at cut most
  -- A mantissa that got too long stands for the same number, with one place more.
  obtain ⟨lastPlaces, rfl, equal⟩ : ∃ lastPlaces : Nat, last = lastPlaces
      ∧ rounded * 2 ^ lastPlaces = kept * 2 ^ cutPlaces := by
    rcases cut with ⟨rfl, rfl⟩ | ⟨rfl, rfl⟩
    · exact ⟨cutPlaces, by omega, rfl⟩
    · exact ⟨cutPlaces + 1, by push_cast; omega, by ring⟩
  have bound : 2 ^ (52 + lastPlaces) < 2 ^ 1024 := by
    calc 2 ^ (52 + lastPlaces)
      _ = 2 ^ 52 * 2 ^ lastPlaces := pow_add ..
      _ ≤ rounded * 2 ^ lastPlaces := Nat.mul_le_mul_right _ least
      _ ≤ roundedUp number := equal.trans_le most
      _ < 2 ^ 1024 := within
  have lastBound := (Nat.pow_lt_pow_iff_right (by decide)).mp bound
  refine ⟨rounded, lastPlaces, ⟨nonzero, ?_⟩, full, by omega, ?_, ?_⟩
  · rw [same]
    exact unpack_pack nonzero full (by omega) (by omega)
  · rw [zpow_natCast]
    exact_mod_cast (Nat.min_le_right ..).trans (least.trans (Nat.le_mul_of_pos_right _
      (by positivity)))
  · rw [zpow_natCast]
    exact_mod_cast equal.trans_le most

/-- A number of 64 bits becomes a double. -/
theorem roundedTo_toFloat {number : Nat} (positive : 0 < number) (within : number < 2 ^ 64)
    : ∃ mantissa exponent, RoundedTo number number.toUInt64.toFloat mantissa exponent := by
  have value : number.toUInt64.toNat = number := UInt64.toNat_ofNat_of_lt' within
  have same : number.toUInt64.toFloat
      = .ofModel (pack (UnpackedFloat.round Format.binary64 .positive number 0)) := by
    change Float.ofModel (pack (UnpackedFloat.normalize Format.binary64
      (number.toUInt64.toNat : Int) 0 .positive)) = _
    rw [value, UnpackedFloat.normalize, Int.compare_eq_gt.mpr (by omega : (0 : Int) < number),
      Int.toNat_natCast]
  rcases Nat.lt_or_ge number (2 ^ 53) with short | long
  · refine ⟨_, _, roundedTo_of_short positive short ?_⟩
    rw [same, round_magnitude .positive positive short]
    have places : number.log2 < 53 := (Nat.log2_lt positive.ne').mpr short
    exact unpack_pack _ (log2_full positive short) (by omega) (by omega)
  · have limit : roundedUp number < 2 ^ 1024 :=
      (roundedUp_mono within.le).trans_lt (by decide +kernel)
    have length : 53 ≤ number.log2 := (Nat.le_log2 positive.ne').mpr long
    have target : (0 - Format.binary64.targetExponent (totalExponent number 0)).toNat = 0 := by
      rw [targetExponent_eq, totalExponent]
      omega
    have rounded := roundedTo_of_long long limit 0 (by decide)
    rw [same]
    simpa only [UnpackedFloat.round, UnpackedFloat.decreaseExponent, target, Nat.shiftLeft_zero,
      pow_zero, Nat.mul_one, Nat.cast_zero, Int.sub_zero, neg_zero] using rounded

-----------------------------------------------------------------------------------------
-- Products
-----------------------------------------------------------------------------------------

/-- The greatest double, which is too long to be worked out on the way. -/
@[irreducible]
def greatestDouble : Nat :=
  (2 ^ 53 - 1) * 2 ^ 971

theorem cast_greatestDouble
    : (greatestDouble : ℚ) = (2 ^ 53 - 1 : Nat) * 2 ^ (971 : Int) := by
  have cast (places : Nat)
      : (((2 ^ 53 - 1) * 2 ^ places : Nat) : ℚ) = (2 ^ 53 - 1 : Nat) * 2 ^ (places : Int) := by
    rw [Nat.cast_mul, Nat.cast_pow, zpow_natCast, Nat.cast_ofNat]
  unfold greatestDouble
  exact cast 971

/-- A number with a long mantissa whose exponent is out of range when it is rounded was not below
the greatest double: a mantissa that got too long by rounding was as great as a mantissa can be
before.
-/
theorem greatestDouble_le {mantissa kept rounded : Nat} {exponent last : Int}
    (nonzero : mantissa ≠ 0) (full : rounded.log2 = 52)
    (keptEq : kept = mantissa / 2 ^ (mantissa.log2 - 52)
      ∨ kept = mantissa / 2 ^ (mantissa.log2 - 52) + 1)
    (cut : rounded = kept ∧ last = exponent + (mantissa.log2 - 52 : Nat)
      ∨ 2 * rounded = kept ∧ last = exponent + (mantissa.log2 - 52 : Nat) + 1)
    (long : 52 ≤ mantissa.log2) (beyond : 971 < last)
    : (greatestDouble : ℚ) ≤ mantissa * 2 ^ exponent := by
  have least : 2 ^ 52 ≤ rounded := (log2_eq_iff.mp full).1
  have start : 2 ^ 52 * 2 ^ (mantissa.log2 - 52) ≤ mantissa := by
    rw [← pow_add, show 52 + (mantissa.log2 - 52) = mantissa.log2 by omega]
    exact Nat.log2_self_le nonzero
  generalize mantissa.log2 - 52 = places at keptEq cut start
  -- The mantissa reaches so many units of the last place that is kept.
  obtain ⟨units, reached, enough⟩ : ∃ units : Nat, units * 2 ^ places ≤ mantissa
      ∧ (greatestDouble : ℚ) ≤ units * 2 ^ (places + exponent) := by
    rcases cut with ⟨_, rfl⟩ | ⟨rfl, rfl⟩
    · refine ⟨2 ^ 52, start, ?_⟩
      calc (greatestDouble : ℚ)
        _ = (2 ^ 53 - 1 : Nat) * 2 ^ (971 : Int) := cast_greatestDouble
        _ ≤ (2 ^ 53 : Nat) * 2 ^ (971 : Int) := by gcongr; norm_num
        _ = (2 ^ 52 : Nat) * 2 ^ (972 : Int) := by
            rw [show (972 : Int) = 1 + 971 by rfl, zpow_add₀ (by norm_num), ← mul_assoc]
            norm_num
        _ ≤ (2 ^ 52 : Nat) * 2 ^ (places + exponent) := by
            have := zpow_le_zpow_right₀ (show (1 : ℚ) ≤ 2 by norm_num)
              (show (972 : Int) ≤ places + exponent by omega)
            gcongr
    · refine ⟨2 ^ 53 - 1, ?_, ?_⟩
      · exact (Nat.le_div_iff_mul_le (by positivity)).mp (by omega)
      · calc (greatestDouble : ℚ)
          _ = (2 ^ 53 - 1 : Nat) * 2 ^ (971 : Int) := cast_greatestDouble
          _ ≤ (2 ^ 53 - 1 : Nat) * 2 ^ (places + exponent) := by
              have := zpow_le_zpow_right₀ (show (1 : ℚ) ≤ 2 by norm_num)
                (show (971 : Int) ≤ places + exponent by omega)
              gcongr
  calc (greatestDouble : ℚ)
    _ ≤ units * 2 ^ (places + exponent) := enough
    _ = (units * 2 ^ places : Nat) * 2 ^ exponent := by
        rw [zpow_add₀ (by norm_num), zpow_natCast]
        push_cast
        ring
    _ ≤ mantissa * 2 ^ exponent := by
        have : ((units * 2 ^ places : Nat) : ℚ) ≤ mantissa := by exact_mod_cast reached
        gcongr

/-- A product is finite if what its factors are rounded up to has a product below the greatest
double.
-/
theorem RoundedTo.isFinite_mul {first second : Nat} {left right : Float} {mantissa other : Nat}
    {exponent otherExponent : Int} (atLeft : RoundedTo first left mantissa exponent)
    (atRight : RoundedTo second right other otherExponent)
    (below : roundedUp first * roundedUp second < greatestDouble)
    : (left * right).isFinite = true := by
  obtain ⟨positive, leftParts⟩ := atLeft.parts
  obtain ⟨otherPositive, rightParts⟩ := atRight.parts
  have nonzero : mantissa * other ≠ 0 := (Nat.mul_pos positive otherPositive).ne'
  have long : 52 ≤ (mantissa * other).log2 := by
    refine (Nat.le_log2 nonzero).mpr ?_
    calc 2 ^ 52
      _ ≤ mantissa := (log2_eq_iff.mp atLeft.full).1
      _ ≤ mantissa * other := Nat.le_mul_of_pos_right _ otherPositive
  have leftExponent := atLeft.low
  have rightExponent := atRight.low
  obtain ⟨kept, rounded, last, roundedPositive, same, full, keptEq, cut⟩ :=
    exists_roundWithAccuracy .positive .exact long
      (show -1074 ≤ exponent + otherExponent by omega)
  have product : left * right
      = .ofModel (pack (UnpackedFloat.roundWithAccuracy Format.binary64 .positive
          (mantissa * other) (exponent + otherExponent) .exact)) := by
    change Float.ofModel (pack (UnpackedFloat.mul Format.binary64 left.toModel.unpack
      right.toModel.unpack)) = _
    rw [leftParts, rightParts]
    rfl
  rw [product, same]
  refine isFinite_pack (Int.not_lt.mp fun beyond => ?_)
  have reached := greatestDouble_le nonzero full keptEq cut long beyond
  refine absurd below (Nat.not_lt.mpr ?_)
  have bound : (greatestDouble : ℚ) ≤ (roundedUp first * roundedUp second : Nat) := by
    calc (greatestDouble : ℚ)
      _ ≤ (mantissa * other : Nat) * 2 ^ (exponent + otherExponent) := reached
      _ = mantissa * 2 ^ exponent * (other * 2 ^ otherExponent) := by
          rw [zpow_add₀ (by norm_num)]
          push_cast
          ring
      _ ≤ roundedUp first * roundedUp second :=
          mul_le_mul atLeft.most atRight.most (by positivity) (by positivity)
      _ = (roundedUp first * roundedUp second : Nat) := (Nat.cast_mul _ _).symm
  exact Nat.cast_le.mp bound

-----------------------------------------------------------------------------------------
-- Quotients
-----------------------------------------------------------------------------------------

/-- What is left of a mantissa fits into one after the first cut, and its exponent is at least the one
that is aimed at.
-/
theorem exists_shiftToTargetExponent (mantissa : Nat) (exponent : Int)
    (accuracy : UnpackedFloat.Accuracy)
    : ∃ cut : UnpackedFloat.ExtendedMantissa,
        UnpackedFloat.shiftToTargetExponent Format.binary64 mantissa exponent accuracy
          = (cut, max exponent (max ((mantissa.log2 : Int) + exponent - 52) (-1074)))
        ∧ cut.mantissa < 2 ^ 53 := by
  have target : Format.binary64.targetExponent (totalExponent mantissa exponent)
      = max ((mantissa.log2 : Int) + exponent - 52) (-1074) := by
    rw [targetExponent_eq, totalExponent]
    omega
  have aimHigh := le_max_left ((mantissa.log2 : Int) + exponent - 52) (-1074)
  generalize max ((mantissa.log2 : Int) + exponent - 52) (-1074) = aim at target aimHigh ⊢
  refine ⟨UnpackedFloat.ExtendedMantissa.ofMantissaAndAccuracy mantissa accuracy
    >>> (aim - exponent).toNat, ?_, ?_⟩
  · rw [UnpackedFloat.shiftToTargetExponent, UnpackedFloat.shiftToExponent, target]
    congr 1
    omega
  · rw [mantissa_shiftRight, mantissa_ofMantissaAndAccuracy,
      Nat.div_lt_iff_lt_mul (by positivity), ← pow_add]
    exact Nat.lt_log2_self.trans_le (Nat.pow_le_pow_right (by decide) (by omega))

/-- Rounding gives zero or raises the exponent to the one that is aimed at, and by one at most when
the mantissa gets too long by it.
-/
theorem exponent_roundWithAccuracy (sign : UnpackedFloat.Sign) (mantissa : Nat) (exponent : Int)
    (accuracy : UnpackedFloat.Accuracy)
    : UnpackedFloat.roundWithAccuracy Format.binary64 sign mantissa exponent accuracy = .zero sign
      ∨ ∃ rounded last positive,
          UnpackedFloat.roundWithAccuracy Format.binary64 sign mantissa exponent accuracy
            = .finite sign rounded last positive
          ∧ last ≤ max exponent (max ((mantissa.log2 : Int) + exponent - 52) (-1074)) + 1 := by
  obtain ⟨cut, first, short⟩ := exists_shiftToTargetExponent mantissa exponent accuracy
  have aimLow : -1074 ≤ max ((mantissa.log2 : Int) + exponent - 52) (-1074) := le_max_right ..
  generalize max ((mantissa.log2 : Int) + exponent - 52) (-1074) = aim at first aimLow ⊢
  have length : cut.roundedMantissa.log2 ≤ 53 := by
    have roundedOf := roundedMantissa_eq_or cut
    rcases Nat.eq_zero_or_pos cut.roundedMantissa with zero | positive
    · simp [zero]
    · exact Nat.le_of_lt_succ ((Nat.log2_lt positive.ne').mpr (by omega))
  rw [UnpackedFloat.roundWithAccuracy, first]
  dsimp only
  split
  · exact .inl rfl
  · next nonzero =>
      refine .inr ⟨_, _, Nat.pos_of_ne_zero nonzero, rfl, ?_⟩
      simp only [UnpackedFloat.shiftToTargetExponent, UnpackedFloat.shiftToExponent,
        targetExponent_eq, totalExponent]
      omega

/-- The whole part of a quotient has no more places than the dividend was given, and one. -/
theorem log2_shifted_quotient {dividend divisor : Nat} (short : dividend < 2 ^ 53)
    (full : divisor.log2 = 52) (places : Nat)
    : ((dividend <<< places) / divisor).log2 ≤ places := by
  have least : 2 ^ 52 ≤ divisor := (log2_eq_iff.mp full).1
  have bound : (dividend <<< places) / divisor < 2 ^ (places + 1) := by
    rw [Nat.div_lt_iff_lt_mul (by omega), Nat.shiftLeft_eq]
    calc dividend * 2 ^ places
      _ < 2 ^ 53 * 2 ^ places := Nat.mul_lt_mul_of_pos_right short (by positivity)
      _ = 2 ^ (places + 1) * 2 ^ 52 := by ring
      _ ≤ 2 ^ (places + 1) * divisor := Nat.mul_le_mul_left _ least
  rcases Nat.eq_zero_or_pos ((dividend <<< places) / divisor) with zero | positive
  · simp [zero]
  · exact Nat.le_of_lt_succ ((Nat.log2_lt positive.ne').mpr bound)

/-- What is rounded from ten or more has four binary places before its point at least. -/
theorem RoundedTo.exponent_of_ten {number mantissa : Nat} {value : Float} {exponent : Int}
    (rounded : RoundedTo number value mantissa exponent) (ten : 10 ≤ number)
    : -50 < exponent := by
  by_contra small
  have below : (mantissa : ℚ) * 2 ^ exponent < 10 := by
    calc (mantissa : ℚ) * 2 ^ exponent
      _ ≤ (2 ^ 53 : Nat) * 2 ^ (-50 : Int) := by
          have := zpow_le_zpow_right₀ (show (1 : ℚ) ≤ 2 by norm_num)
            (show exponent ≤ -50 by omega)
          have : (mantissa : ℚ) ≤ (2 ^ 53 : Nat) := by
            exact_mod_cast (log2_eq_iff.mp rounded.full).2.le
          gcongr
      _ < 10 := by norm_num
  have least : (10 : ℚ) ≤ mantissa * 2 ^ exponent := by
    refine le_trans ?_ rounded.least
    exact_mod_cast le_min ten (by norm_num)
  exact absurd least below.not_ge

/-- A quotient is finite if its divisor was rounded from ten or more. -/
theorem isFinite_div {dividend divisor : Float} {number mantissa : Nat} {exponent : Int}
    (finite : dividend.isFinite = true) (rounded : RoundedTo number divisor mantissa exponent)
    (ten : 10 ≤ number)
    : (dividend / divisor).isFinite = true := by
  obtain ⟨positive, divisorParts⟩ := rounded.parts
  have quotient : dividend / divisor
      = .ofModel (pack (UnpackedFloat.div Format.binary64 dividend.toModel.unpack
          (.finite .positive mantissa exponent positive))) := by
    rw [← divisorParts]
    rfl
  change dividend.toModel.unpack.isFinite = true at finite
  rw [quotient]
  cases parts : dividend.toModel.unpack with
  | infinity sign => simp [parts, UnpackedFloat.isFinite] at finite
  | notANumber => simp [parts, UnpackedFloat.isFinite] at finite
  | zero sign => exact isFinite_pack_zero _
  | finite sign other otherExponent otherPositive =>
      obtain ⟨short, _, high⟩ := bounds_of_unpack parts
      have low := rounded.exponent_of_ten ten
      have length : other.log2 < 53 := (Nat.log2_lt otherPositive.ne').mpr short
      have target : Format.binary64.targetExponent
          (totalExponent other otherExponent - totalExponent mantissa exponent) ≤ 967 := by
        rw [targetExponent_eq, totalExponent, totalExponent, rounded.full]
        omega
      simp only [UnpackedFloat.div, UnpackedFloat.divCore]
      generalize Format.binary64.targetExponent
        (totalExponent other otherExponent - totalExponent mantissa exponent) = aim at target
      have places := log2_shifted_quotient short rounded.full
        (otherExponent - exponent - min (otherExponent - exponent) aim).toNat
      rcases exponent_roundWithAccuracy (sign / .positive) _ _ _ with
        zero | ⟨_, last, _, same, most⟩
      · rw [zero]
        exact isFinite_pack_zero _
      · rw [same]
        exact isFinite_pack (by omega)

end SharedBoard.Rounding
