import SharedBoard.Proofs.Rounding.Mantissa
import SharedBoard.Rounding

/-! Whole numbers of 32 bits divided as doubles. They become doubles without being rounded, and the
whole number that is nearest to their quotient as a double is nearest to their exact quotient too.
-/

namespace SharedBoard.Rounding

open Float.Model

-----------------------------------------------------------------------------------------
-- Halves
-----------------------------------------------------------------------------------------

theorem nearest_neg (mantissa places : Nat)
    : nearest mantissa (-places) = (2 * mantissa + 2 ^ places) / (2 * 2 ^ places) := by
  unfold nearest
  split
  · next whole =>
      obtain rfl : places = 0 := by omega
      simp
      omega
  · simp

theorem nearest_two_mul (mantissa places : Nat)
    : nearest (2 * mantissa) (-(places + 1 : Nat)) = nearest mantissa (-places) := by
  rw [nearest_neg, nearest_neg]
  calc (2 * (2 * mantissa) + 2 ^ (places + 1)) / (2 * 2 ^ (places + 1))
    _ = 2 * (2 * mantissa + 2 ^ places) / (2 * (2 * 2 ^ places)) := by congr 1 <;> ring
    _ = (2 * mantissa + 2 ^ places) / (2 * 2 ^ places) :=
        Nat.mul_div_mul_left _ _ (by norm_num)

/-- A quotient that is cut to enough binary places and then rounded down or up is as near to the
same whole number as the quotient is: between it and the half way points there is no room for an
error of one in the last place.
-/
theorem nearest_eq_of_cut {dividend divisor places kept : Nat} (positive : 0 < divisor)
    (enough : 2 * divisor < 2 ^ places)
    (near : kept = dividend * 2 ^ places / divisor ∨ kept = dividend * 2 ^ places / divisor + 1)
    : nearest kept (-places) = (2 * dividend + divisor) / (2 * divisor) := by
  obtain ⟨half, even⟩ : ∃ half, 2 ^ places = 2 * half := by
    cases places with
    | zero => omega
    | succ places => exact ⟨2 ^ places, by ring⟩
  rw [even] at enough near
  rw [nearest_neg, even]
  set cut := dividend * (2 * half) / divisor
  set whole := (2 * dividend + divisor) / (2 * divisor)
  have cutLow : cut * divisor ≤ dividend * (2 * half) := Nat.div_mul_le_self _ _
  have cutHigh : dividend * (2 * half) < (cut + 1) * divisor :=
    (Nat.div_lt_iff_lt_mul positive).mp (Nat.lt_succ_self cut)
  have wholeLow : whole * (2 * divisor) ≤ 2 * dividend + divisor := Nat.div_mul_le_self _ _
  have wholeHigh : 2 * dividend + divisor < (whole + 1) * (2 * divisor) :=
    (Nat.div_lt_iff_lt_mul (by omega)).mp (Nat.lt_succ_self whole)
  -- Both bounds are strict and between whole numbers, so that rounding up does not reach them.
  have above : whole * (2 * half) < cut + 1 + half := by
    refine Nat.lt_of_mul_lt_mul_left (a := divisor) ?_
    calc divisor * (whole * (2 * half))
      _ = whole * (2 * divisor) * half := by ring
      _ ≤ (2 * dividend + divisor) * half := Nat.mul_le_mul_right _ wholeLow
      _ = dividend * (2 * half) + divisor * half := by ring
      _ < (cut + 1) * divisor + divisor * half := Nat.add_lt_add_right cutHigh _
      _ = divisor * (cut + 1 + half) := by ring
  have below : cut + 1 + half < (whole + 1) * (2 * half) := by
    refine Nat.lt_of_mul_lt_mul_left (a := divisor) ?_
    calc divisor * (cut + 1 + half)
      _ = cut * divisor + divisor * half + divisor := by ring
      _ < cut * divisor + divisor * half + half := by omega
      _ ≤ dividend * (2 * half) + divisor * half + half := by omega
      _ = (2 * dividend + divisor + 1) * half := by ring
      _ ≤ (whole + 1) * (2 * divisor) * half := Nat.mul_le_mul_right _ wholeHigh
      _ = divisor * ((whole + 1) * (2 * half)) := by ring
  apply Nat.div_eq_of_lt_le
  · calc whole * (2 * (2 * half))
      _ = 2 * (whole * (2 * half)) := by ring
      _ ≤ 2 * kept + 2 * half := by omega
  · calc 2 * kept + 2 * half
      _ < 2 * ((whole + 1) * (2 * half)) := by omega
      _ = (whole + 1) * (2 * (2 * half)) := by ring

-----------------------------------------------------------------------------------------
-- Whole numbers
-----------------------------------------------------------------------------------------

/-- A whole number with zeros after it up to the length of a full mantissa. -/
def full (magnitude : Nat) : Nat :=
  magnitude * 2 ^ (52 - magnitude.log2)

theorem log2_full {magnitude : Nat} (positive : 0 < magnitude) (short : magnitude < 2 ^ 53)
    : (full magnitude).log2 = 52 := by
  have places : magnitude.log2 < 53 := (Nat.log2_lt positive.ne').mpr short
  rw [log2_eq_iff, full]
  constructor
  · calc 2 ^ 52
      _ = 2 ^ magnitude.log2 * 2 ^ (52 - magnitude.log2) := by rw [← pow_add]; congr 1; omega
      _ ≤ magnitude * 2 ^ (52 - magnitude.log2) :=
          Nat.mul_le_mul_right _ (Nat.log2_self_le positive.ne')
  · calc magnitude * 2 ^ (52 - magnitude.log2)
      _ < 2 ^ (magnitude.log2 + 1) * 2 ^ (52 - magnitude.log2) :=
          Nat.mul_lt_mul_of_pos_right Nat.lt_log2_self (by positivity)
      _ = 2 ^ 53 := by rw [← pow_add]; congr 1; omega

theorem full_pos {magnitude : Nat} (positive : 0 < magnitude) : 0 < full magnitude :=
  Nat.mul_pos positive (by positivity)

/-- Whole numbers that fit into a mantissa are not rounded. -/
theorem round_magnitude {magnitude : Nat} (sign : UnpackedFloat.Sign) (positive : 0 < magnitude)
    (short : magnitude < 2 ^ 53)
    : UnpackedFloat.round Format.binary64 sign magnitude 0
      = .finite sign (full magnitude) (magnitude.log2 - 52) (full_pos positive) := by
  have places : magnitude.log2 < 53 := (Nat.log2_lt positive.ne').mpr short
  have target : Format.binary64.targetExponent (totalExponent magnitude 0)
      = magnitude.log2 - 52 := by
    rw [targetExponent_eq, totalExponent]
    omega
  have amount : (0 - ((magnitude.log2 : Int) - 52)).toNat = 52 - magnitude.log2 := by omega
  have last : (0 : Int) - (52 - magnitude.log2 : Nat) = magnitude.log2 - 52 := by omega
  simp only [UnpackedFloat.round, target, UnpackedFloat.decreaseExponent, amount, last,
    Nat.shiftLeft_eq]
  exact roundWithAccuracy_exact sign (full_pos positive) (log2_full positive short) (by omega)

/-- The sign of a whole number, zero counted as positive. -/
def signOf (value : Int) : UnpackedFloat.Sign :=
  if value < 0 then .negative else .positive

/-- Whole numbers that fit into a mantissa become doubles without being rounded. -/
theorem ofInt_eq {value : Int} (nonzero : 0 < value.natAbs) (short : value.natAbs < 2 ^ 53)
    : UnpackedFloat.ofInt Format.binary64 value
      = .finite (signOf value) (full value.natAbs) (value.natAbs.log2 - 52)
          (full_pos nonzero) := by
  rw [← round_magnitude _ nonzero short, UnpackedFloat.ofInt, UnpackedFloat.normalize]
  rcases Int.lt_trichotomy value 0 with below | zero | above
  · rw [Int.compare_eq_lt.mpr below, signOf, if_pos below,
      show value.natAbs = (-value).toNat by omega]
  · exact absurd (Int.natAbs_eq_zero.mpr zero) nonzero.ne'
  · rw [Int.compare_eq_gt.mpr above, signOf, if_neg (by omega),
      show value.natAbs = value.toNat by omega]

theorem natAbs_toInt_le (value : Int32) : value.toInt.natAbs ≤ 2 ^ 31 := by
  have low := value.le_toInt
  have high := value.toInt_lt
  omega

theorem unpack_ofInt32 {value : Int32} (nonzero : 0 < value.toInt.natAbs)
    : (ofInt32 value).toModel.unpack
      = .finite (signOf value.toInt) (full value.toInt.natAbs) (value.toInt.natAbs.log2 - 52)
          (full_pos nonzero) := by
  have short : value.toInt.natAbs < 2 ^ 53 :=
    (natAbs_toInt_le value).trans_lt (by norm_num)
  have places : value.toInt.natAbs.log2 < 53 := (Nat.log2_lt nonzero.ne').mpr short
  change (Float.Model.pack (UnpackedFloat.ofInt Format.binary64 value.toInt)).unpack = _
  rw [ofInt_eq nonzero short]
  exact unpack_pack _ (log2_full nonzero short) (by omega) (by omega)

-----------------------------------------------------------------------------------------
-- Quotients
-----------------------------------------------------------------------------------------

/-- A quotient of full mantissas with 53 more places has one place more than a full one at most. -/
theorem log2_quotient {dividend divisor : Nat} (dividendFull : dividend.log2 = 52)
    (divisorFull : divisor.log2 = 52)
    : 52 ≤ (dividend * 2 ^ 53 / divisor).log2 ∧ (dividend * 2 ^ 53 / divisor).log2 ≤ 53 := by
  obtain ⟨dividendLow, dividendHigh⟩ := log2_eq_iff.mp dividendFull
  obtain ⟨divisorLow, divisorHigh⟩ := log2_eq_iff.mp divisorFull
  have low : 2 ^ 52 ≤ dividend * 2 ^ 53 / divisor := by
    rw [Nat.le_div_iff_mul_le (by omega)]
    omega
  have high : dividend * 2 ^ 53 / divisor < 2 ^ 54 := by
    rw [Nat.div_lt_iff_lt_mul (by omega)]
    omega
  exact ⟨(Nat.le_log2 (by omega)).mpr low, Nat.le_of_lt_succ ((Nat.log2_lt (by omega)).mpr high)⟩

theorem divCore_eq {dividend divisor : Nat} {exponent divisorExponent : Int}
    (dividendFull : dividend.log2 = 52) (divisorFull : divisor.log2 = 52)
    (low : -1021 ≤ exponent - divisorExponent)
    : UnpackedFloat.divCore Format.binary64 dividend exponent divisor divisorExponent
      = (dividend * 2 ^ 53 / divisor, exponent - divisorExponent - 53,
          UnpackedFloat.accuracyOfFraction (dividend * 2 ^ 53 % divisor) divisor) := by
  have target : min (exponent - divisorExponent)
        (Format.binary64.targetExponent
          (totalExponent dividend exponent - totalExponent divisor divisorExponent))
      = exponent - divisorExponent - 53 := by
    rw [targetExponent_eq, totalExponent, totalExponent, dividendFull, divisorFull]
    omega
  have places : (exponent - divisorExponent - (exponent - divisorExponent - 53)).toNat = 53 := by
    omega
  simp only [UnpackedFloat.divCore, target, places, Nat.shiftLeft_eq]

/-- A quotient of full mantissas that is cut is a quotient of the numbers that is cut. -/
theorem quotient_div {dividend divisor places cut : Nat} (dividendPlaces : dividend.log2 ≤ 52)
    (divisorPlaces : divisor.log2 ≤ 52)
    (places_eq : places + cut + dividend.log2 = 53 + divisor.log2)
    : full dividend * 2 ^ 53 / full divisor / 2 ^ cut = dividend * 2 ^ places / divisor := by
  have aligned : full dividend * 2 ^ 53
      = dividend * 2 ^ places * 2 ^ (52 - divisor.log2 + cut) := by
    rw [full, mul_assoc, mul_assoc, ← pow_add, ← pow_add]
    congr 2
    omega
  rw [Nat.div_div_eq_div_mul, aligned, full, mul_assoc divisor, ← pow_add,
    Nat.mul_div_mul_right _ _ (by positivity)]

/-- The quotient of whole numbers is a number with a full mantissa that is as near to a whole number
as the quotient without rounding.
-/
theorem exists_div {dividend divisor : Nat} (sign : UnpackedFloat.Sign)
    (dividendPositive : 0 < dividend) (dividendBound : dividend ≤ 2 ^ 31)
    (divisorPositive : 0 < divisor) (divisorBound : divisor ≤ 2 ^ 31)
    : ∃ mantissa exponent positive,
        UnpackedFloat.div Format.binary64
          (.finite sign (full dividend) (dividend.log2 - 52) (full_pos dividendPositive))
          (.finite .positive (full divisor) (divisor.log2 - 52) (full_pos divisorPositive))
        = .finite sign mantissa exponent positive
        ∧ mantissa.log2 = 52
        ∧ -1074 ≤ exponent
        ∧ exponent ≤ 971
        ∧ nearest mantissa exponent = (2 * dividend + divisor) / (2 * divisor) := by
  have dividendPlaces : dividend.log2 < 32 := (Nat.log2_lt dividendPositive.ne').mpr (by omega)
  have divisorPlaces : divisor.log2 < 32 := (Nat.log2_lt divisorPositive.ne').mpr (by omega)
  have dividendFull := log2_full dividendPositive (by omega)
  have divisorFull := log2_full divisorPositive (by omega)
  have core := divCore_eq dividendFull divisorFull
    (show -1021 ≤ (dividend.log2 : Int) - 52 - (divisor.log2 - 52) by omega)
  obtain ⟨long, short⟩ := log2_quotient dividendFull divisorFull
  obtain ⟨kept, mantissa, exponent, positive, rounded, normal, near, last⟩ :=
    exists_roundWithAccuracy sign
      (UnpackedFloat.accuracyOfFraction (full dividend * 2 ^ 53 % full divisor) (full divisor)) long
      (show -1074 ≤ (dividend.log2 : Int) - 52 - (divisor.log2 - 52) - 53 by omega)
  set cut := (full dividend * 2 ^ 53 / full divisor).log2 - 52
  obtain ⟨places, places_eq⟩ : ∃ places, places + cut + dividend.log2 = 53 + divisor.log2 :=
    ⟨53 + divisor.log2 - cut - dividend.log2, by omega⟩
  -- The dividend has at most 32 places, so that 20 of the 53 are beyond those of the divisor.
  have enough : 2 * divisor < 2 ^ places := by
    calc 2 * divisor
      _ < 2 * 2 ^ (divisor.log2 + 1) := Nat.mul_lt_mul_of_pos_left Nat.lt_log2_self (by norm_num)
      _ = 2 ^ (divisor.log2 + 2) := by ring
      _ ≤ 2 ^ places := Nat.pow_le_pow_right (by norm_num) (by omega)
  rw [quotient_div (by omega) (by omega) places_eq] at near
  have value := nearest_eq_of_cut divisorPositive enough near
  refine ⟨mantissa, exponent, positive, ?_, normal, by omega, by omega, ?_⟩
  · rw [← rounded]
    simp only [UnpackedFloat.div, core]
    cases sign <;> rfl
  · rcases last with ⟨rfl, exponent_eq⟩ | ⟨rfl, exponent_eq⟩
    · rw [← value, show exponent = -(places : Int) by omega]
    · -- A mantissa that got too long by being rounded up is halved; the number stays the same.
      obtain ⟨fewer, rfl⟩ : ∃ fewer, places = fewer + 1 := ⟨places - 1, by omega⟩
      rw [← value, nearest_two_mul, show exponent = -(fewer : Int) by omega]

-----------------------------------------------------------------------------------------
-- Rounded quotients
-----------------------------------------------------------------------------------------

/-- The whole number nearest to a quotient, a half going away from zero. -/
def nearestQuotient (dividend divisor : Int) : Int :=
  if 0 ≤ dividend then (2 * dividend + divisor) / (2 * divisor)
  else -((-2 * dividend + divisor) / (2 * divisor))

theorem apply_signOf_nearest (dividend : Int) {divisor : Int} (positive : 0 < divisor)
    : (signOf dividend).apply
        (((2 * dividend.natAbs + divisor.natAbs) / (2 * divisor.natAbs) : Nat) : Int)
      = nearestQuotient dividend divisor := by
  have same : (divisor.natAbs : Int) = divisor := Int.natAbs_of_nonneg positive.le
  unfold nearestQuotient signOf
  push_cast
  rw [← Int.natCast_natAbs, ← Int.natCast_natAbs, same]
  split
  · next below =>
      rw [if_neg (by omega), show (dividend.natAbs : Int) = -dividend by omega, mul_neg, neg_mul]
      rfl
  · next notBelow =>
      rw [if_pos (by omega), show (dividend.natAbs : Int) = dividend by omega]
      rfl

theorem unpack_div (dividend divisor : Float)
    : (dividend / divisor).toModel.unpack
      = (Float.Model.pack (UnpackedFloat.div Format.binary64 dividend.toModel.unpack
          divisor.toModel.unpack)).unpack :=
  rfl

/-- The quotient of whole numbers of 32 bits, worked out in doubles and rounded, is the whole number
nearest to the exact quotient.
-/
theorem toInt_div (dividend : Int32) {divisor : Int32} (positive : 0 < divisor.toInt)
    : toInt (ofInt32 dividend / ofInt32 divisor)
      = nearestQuotient dividend.toInt divisor.toInt := by
  have divisorPositive : 0 < divisor.toInt.natAbs := Int.natAbs_pos.mpr positive.ne'
  have sign : signOf divisor.toInt = .positive := if_neg positive.not_gt
  rcases Nat.eq_zero_or_pos dividend.toInt.natAbs with zero | dividendPositive
  · obtain rfl : dividend = 0 := Int32.toInt_inj.mp (Int.natAbs_eq_zero.mp zero)
    have zero : (ofInt32 0).toModel.unpack = .zero .positive := rfl
    have divided : UnpackedFloat.div Format.binary64 (.zero .positive)
        (.finite .positive (full divisor.toInt.natAbs) (divisor.toInt.natAbs.log2 - 52)
          (full_pos divisorPositive))
        = .zero .positive := rfl
    have unpacked : (Float.Model.pack (.zero .positive)).unpack = .zero .positive := rfl
    rw [toInt, unpack_div, zero, unpack_ofInt32 divisorPositive, sign, divided, unpacked,
      nearestQuotient, if_pos (by simp), Int32.toInt_zero, mul_zero, zero_add,
      Int.ediv_eq_zero_of_lt (by omega) (by omega)]
  · obtain ⟨mantissa, exponent, mantissaPositive, divided, normal, low, high, value⟩ :=
      exists_div (signOf dividend.toInt) dividendPositive (natAbs_toInt_le dividend)
        divisorPositive (natAbs_toInt_le divisor)
    rw [toInt, unpack_div, unpack_ofInt32 dividendPositive, unpack_ofInt32 divisorPositive, sign,
      divided, unpack_pack _ normal low high, ← apply_signOf_nearest _ positive, ← value]

/-- A number is rounded to the nearest whole one. -/
theorem nearest_eq_round (mantissa : Nat) (exponent : Int)
    : (nearest mantissa exponent : Int) = round ((mantissa : ℚ) * 2 ^ exponent) := by
  rcases Int.le_total 0 exponent with whole | fraction
  · obtain ⟨places, rfl⟩ := Int.eq_ofNat_of_zero_le whole
    rw [nearest, if_pos whole, zpow_natCast, Int.toNat_natCast]
    exact_mod_cast (round_natCast (mantissa * 2 ^ places)).symm
  · obtain ⟨places, rfl⟩ := Int.exists_eq_neg_ofNat fraction
    have halves : (mantissa : ℚ) * 2 ^ (-(places : Int)) + 1 / 2
        = ((2 * mantissa + 2 ^ places : Nat) : ℚ) / ((2 * 2 ^ places : Nat) : ℚ) := by
      rw [zpow_neg, zpow_natCast]
      push_cast
      field_simp
    rw [nearest_neg, round_eq, halves]
    exact (Rat.floor_natCast_div_natCast _ _).symm

/-- A whole number has 32 bits. -/
def Fits (value : Int) : Prop :=
  least ≤ value ∧ value ≤ greatest

instance (value : Int) : Decidable (Fits value) :=
  inferInstanceAs (Decidable (_ ∧ _))

theorem fits_toInt (value : Int32) : Fits value.toInt :=
  ⟨value.le_toInt, Int.le_of_lt_add_one value.toInt_lt⟩

theorem toInt_saturate (value : Int)
    : (saturate value).toInt = max least (min greatest value) := by
  rw [saturate]
  exact Int32.toInt_ofInt_of_le (by unfold least greatest; omega) (by unfold least greatest; omega)

theorem toInt_saturate_of_fits {value : Int} (fits : Fits value)
    : (saturate value).toInt = value := by
  rw [toInt_saturate, min_eq_right fits.2, max_eq_right fits.1]

/-- A product is exact if it fits. -/
theorem toInt_mul_of_fits {left right : Int32} (fits : Fits (left.toInt * right.toInt))
    : (left * right).toInt = left.toInt * right.toInt := by
  obtain ⟨low, high⟩ := fits
  unfold least at low
  unfold greatest at high
  rw [Int32.toInt_mul]
  exact Int.bmod_eq_of_le (by norm_num; omega) (by norm_num; omega)

/-- A factor of a number that fits does so too. -/
theorem Fits.of_mul {value factor : Int} (positive : 0 < factor) (fits : Fits (value * factor))
    : Fits value := by
  obtain ⟨low, high⟩ := fits
  unfold least at low
  unfold greatest at high
  constructor
  · unfold least
    nlinarith
  · unfold greatest
    nlinarith

end SharedBoard.Rounding
