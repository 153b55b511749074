import Mathlib
import SharedBoard.Proofs.OrderKey.Lawful

/-! Doubles are lawful order keys. Comparison is lexicographic on class, exponent and mantissa, the
total order of bit patterns refines it, and arithmetic on finite doubles gives numbers.
-/

namespace SharedBoard.OrderKey

open Float.Model

-----------------------------------------------------------------------------------------
-- Comparison
-----------------------------------------------------------------------------------------

/-- The place of a number in the numeric order: its class, then for finite numbers the exponent
and the mantissa, both reversed below zero.
-/
def rank : UnpackedFloat → Int × Int × Int
  | .infinity .negative => (-2, 0, 0)
  | .finite .negative mantissa exponent _ => (-1, -exponent, -mantissa)
  | .zero _ => (0, 0, 0)
  | .notANumber => (0, 0, 0)
  | .finite .positive mantissa exponent _ => (1, exponent, mantissa)
  | .infinity .positive => (2, 0, 0)

/-- The lexicographic order of places. -/
def Precedes (left right : Int × Int × Int) : Prop :=
  left.1 < right.1
  ∨ left.1 = right.1 ∧ (left.2.1 < right.2.1 ∨ left.2.1 = right.2.1 ∧ left.2.2 < right.2.2)

/-- Numbers compare as less by their places, by cases on both classes and signs. -/
theorem compare_eq_lt_iff (left right : UnpackedFloat)
    : left.compare right = some .lt
      ↔ left.isNaN = false ∧ right.isNaN = false ∧ Precedes (rank left) (rank right) := by
  rcases left with ⟨_ | _⟩ | _ | ⟨_ | _⟩ | ⟨_ | _, _, _, _⟩ <;>
    rcases right with ⟨_ | _⟩ | _ | ⟨_ | _⟩ | ⟨_ | _, _, _, _⟩ <;>
    simp [UnpackedFloat.compare, UnpackedFloat.isNaN, rank, Precedes, Ordering.then_eq_lt,
      Ordering.then_eq_gt, Int.compare_eq_lt, Int.compare_eq_gt, Nat.compare_eq_lt,
      Nat.compare_eq_gt]
  decide

/-- Numbers compare as equal when their places are, by cases on both classes and signs. -/
theorem compare_eq_eq_iff (left right : UnpackedFloat)
    : left.compare right = some .eq
      ↔ left.isNaN = false ∧ right.isNaN = false ∧ rank left = rank right := by
  rcases left with ⟨_ | _⟩ | _ | ⟨_ | _⟩ | ⟨_ | _, _, _, _⟩ <;>
    rcases right with ⟨_ | _⟩ | _ | ⟨_ | _⟩ | ⟨_ | _, _, _, _⟩ <;>
    simp [UnpackedFloat.compare, UnpackedFloat.isNaN, rank, Ordering.then_eq_eq] <;>
    decide

/-- The place of a double. -/
def place (key : Float) : Int × Int × Int :=
  rank key.toModel.unpack

theorem lt_iff_precedes (left right : Float)
    : left < right
      ↔ left.isNaN = false ∧ right.isNaN = false ∧ Precedes (place left) (place right) := by
  rw [show left < right ↔ (left.toModel.unpack.compare right.toModel.unpack == some .lt) = true from
    decide_eq_true_iff, beq_iff_eq]
  exact compare_eq_lt_iff ..

/-- Doubles are equal by their places, if both are numbers. -/
theorem beq_iff_place (left right : Float)
    : (left == right) = true
      ↔ left.isNaN = false ∧ right.isNaN = false ∧ place left = place right := by
  rw [show (left == right) = (left.toModel.unpack.compare right.toModel.unpack == some .eq) from rfl,
    beq_iff_eq]
  exact compare_eq_eq_iff ..

theorem beq_self_iff {key : Float} : (key == key) = true ↔ key.isNaN = false := by
  simp

/-- The place of a positive number with the given exponent and mantissa fields. -/
def fieldPlace (exponent mantissa : Nat) : Int × Int × Int :=
  if exponent = 2047 then (2, 0, 0)
  else if exponent = 0 then if mantissa = 0 then (0, 0, 0) else (1, -1074, mantissa)
  else (1, exponent - 1075, 4503599627370496 + mantissa)

/-- The place of the number with the other sign. -/
def opposite (place : Int × Int × Int) : Int × Int × Int :=
  (-place.1, -place.2.1, -place.2.2)

theorem toNat_unpackExponent (bits : BitVec Format.binary64.numBits)
    : (UnpackedFloat.unpackExponent bits).toNat = bits.toNat / 4503599627370496 % 2048 := by
  simp [UnpackedFloat.unpackExponent, BitVec.extractLsb_toNat, Nat.shiftRight_eq_div_pow]

theorem toNat_unpackMantissa (bits : BitVec Format.binary64.numBits)
    : (UnpackedFloat.unpackMantissa bits).toNat = bits.toNat % 4503599627370496 := by
  simp [UnpackedFloat.unpackMantissa, BitVec.extractLsb_toNat]

theorem toNat_unpackSign (bits : BitVec Format.binary64.numBits)
    : (UnpackedFloat.unpackSign bits).toNat = bits.toNat / 9223372036854775808 % 2 := by
  simp [UnpackedFloat.unpackSign, BitVec.extractLsb_toNat, Nat.shiftRight_eq_div_pow]

/-- The place of an unpacked number can be read off its fields, by cases on the exponent, the
mantissa and the sign.
-/
theorem rank_unpack {bits : BitVec Format.binary64.numBits}
    (number : (UnpackedFloat.unpack Format.binary64 bits).isNaN = false)
    : rank (UnpackedFloat.unpack Format.binary64 bits)
      = if (UnpackedFloat.unpackSign bits).toNat = 0 then
          fieldPlace (UnpackedFloat.unpackExponent bits).toNat
            (UnpackedFloat.unpackMantissa bits).toNat
        else
          opposite (fieldPlace (UnpackedFloat.unpackExponent bits).toNat
            (UnpackedFloat.unpackMantissa bits).toNat) := by
  have positive : (UnpackedFloat.unpackSign bits).toNat = 0
      ↔ UnpackedFloat.unpackSign bits = 0#1 := by simp [← BitVec.toNat_inj]
  have highest : (UnpackedFloat.unpackExponent bits).toNat = 2047
      ↔ UnpackedFloat.unpackExponent bits = 2047#11 := by simp [← BitVec.toNat_inj]
  have lowest : (UnpackedFloat.unpackExponent bits).toNat = 0
      ↔ UnpackedFloat.unpackExponent bits = 0#11 := by simp [← BitVec.toNat_inj]
  have zero : (UnpackedFloat.unpackMantissa bits).toNat = 0
      ↔ UnpackedFloat.unpackMantissa bits = 0#52 := by simp [← BitVec.toNat_inj]
  have implicit : (1#1 ++ UnpackedFloat.unpackMantissa bits).toNat
      = 4503599627370496 + (UnpackedFloat.unpackMantissa bits).toNat := by
    rw [BitVec.toNat_append,
      ← Nat.shiftLeft_add_eq_or_of_lt (UnpackedFloat.unpackMantissa bits).isLt]
    rfl
  have bias : Format.binary64.exponentBias = 1023 := rfl
  have ones : (-1#11 : BitVec 11) = 2047#11 := rfl
  revert number
  simp only [positive, fieldPlace, highest, lowest, zero, UnpackedFloat.unpack,
    UnpackedFloat.Sign.ofBitVec, ones]
  intro number
  by_cases top : UnpackedFloat.unpackExponent bits = 2047#11
  · by_cases none : UnpackedFloat.unpackMantissa bits = 0#52
    · by_cases sign : UnpackedFloat.unpackSign bits = 0#1 <;>
        simp [top, none, sign, rank, opposite]
    · simp [top, none, UnpackedFloat.isNaN] at number
  · by_cases bottom : UnpackedFloat.unpackExponent bits = 0#11
    · by_cases none : UnpackedFloat.unpackMantissa bits = 0#52
      · simp [bottom, none, rank, opposite]
      · by_cases sign : UnpackedFloat.unpackSign bits = 0#1 <;>
          simp [bottom, none, sign, rank, opposite, bias]
    · by_cases sign : UnpackedFloat.unpackSign bits = 0#1 <;>
        simp [top, bottom, sign, rank, opposite, bias, implicit]

/-- The place of a positive number is not below zero. -/
theorem fieldPlace_nonneg (exponent mantissa : Nat)
    : 0 ≤ (fieldPlace exponent mantissa).1
      ∧ ((fieldPlace exponent mantissa).1 = 0 → fieldPlace exponent mantissa = (0, 0, 0)) := by
  unfold fieldPlace
  split
  · simp
  · split
    · split <;> simp
    · simp

/-- Of two positive numbers the lower one has the lower bit pattern, by cases on the fields. -/
theorem pattern_lt_of_precedes {lowExponent lowMantissa highExponent highMantissa : Nat}
    (lowBound : lowMantissa < 4503599627370496) (highBound : highMantissa < 4503599627370496)
    (lowRange : lowExponent < 2048) (highRange : highExponent < 2048)
    (before : Precedes (fieldPlace lowExponent lowMantissa) (fieldPlace highExponent highMantissa))
    : lowExponent * 4503599627370496 + lowMantissa
      < highExponent * 4503599627370496 + highMantissa := by
  unfold Precedes fieldPlace at before
  by_cases lowTop : lowExponent = 2047 <;>
    by_cases lowBottom : lowExponent = 0 <;>
    by_cases lowNone : lowMantissa = 0 <;>
    by_cases highTop : highExponent = 2047 <;>
    by_cases highBottom : highExponent = 0 <;>
    by_cases highNone : highMantissa = 0 <;>
    simp [lowTop, lowBottom, lowNone, highTop, highBottom, highNone] at before <;>
    omega

theorem precedes_of_opposite {left right : Int × Int × Int}
    (before : Precedes (opposite left) (opposite right))
    : Precedes right left := by
  simp only [Precedes, opposite] at before ⊢
  omega

/-- The place of a bit pattern in the total order. -/
def patternRank (pattern : Nat) : Int :=
  if (pattern : Int) < 9223372036854775808 then pattern else 9223372036854775807 - pattern

/-- Lower numbers have patterns of a lower rank: the pattern decides between two positive numbers,
and the other way round between two negative ones.
-/
theorem patternRank_lt_of_precedes {low high : BitVec Format.binary64.numBits}
    (lowNumber : (UnpackedFloat.unpack Format.binary64 low).isNaN = false)
    (highNumber : (UnpackedFloat.unpack Format.binary64 high).isNaN = false)
    (before : Precedes (rank (UnpackedFloat.unpack Format.binary64 low))
      (rank (UnpackedFloat.unpack Format.binary64 high)))
    : patternRank low.toNat < patternRank high.toNat := by
  have lowRange : low.toNat < 18446744073709551616 := low.isLt
  have highRange : high.toNat < 18446744073709551616 := high.isLt
  rw [rank_unpack lowNumber, rank_unpack highNumber, toNat_unpackExponent, toNat_unpackMantissa,
    toNat_unpackSign, toNat_unpackExponent, toNat_unpackMantissa, toNat_unpackSign] at before
  have lowPlace := fieldPlace_nonneg (low.toNat / 4503599627370496 % 2048)
    (low.toNat % 4503599627370496)
  have highPlace := fieldPlace_nonneg (high.toNat / 4503599627370496 % 2048)
    (high.toNat % 4503599627370496)
  unfold patternRank
  split at before <;> split at before
  · have patterns := pattern_lt_of_precedes (by omega) (by omega) (by omega) (by omega) before
    rw [if_pos (by omega), if_pos (by omega)]
    omega
  · -- A positive number is below a negative one only if both are zero, and then not below.
    rcases before with below | ⟨same, rest⟩
    · simp only [opposite] at below
      omega
    · simp only [opposite] at same rest
      rw [lowPlace.2 (by omega), highPlace.2 (by omega)] at rest
      simp at rest
  · rw [if_neg (by omega), if_pos (by omega)]
    omega
  · have patterns := pattern_lt_of_precedes (by omega) (by omega) (by omega) (by omega)
      (precedes_of_opposite before)
    rw [if_neg (by omega), if_neg (by omega)]
    omega

theorem totalRank_eq (key : Float) : totalRank key = patternRank (OrderKey.bits key).toNat := by
  delta totalRank patternRank
  dsimp only

theorem bits_eq {key : Float} (number : key.isNaN = false)
    : OrderKey.bits key = key.toModel.toBits := by
  rw [OrderKey.bits, number, if_neg Bool.false_ne_true, Float.toBits]

theorem totalRank_lt_of_lt {low high : Float} (below : low < high)
    : totalRank low < totalRank high := by
  obtain ⟨lowNumber, highNumber, before⟩ := (lt_iff_precedes low high).mp below
  rw [totalRank_eq, totalRank_eq, bits_eq lowNumber, bits_eq highNumber]
  exact patternRank_lt_of_precedes lowNumber highNumber before

/-- Exactly the highest exponent with a mantissa denotes no number. -/
theorem isNaN_unpack_iff (bits : BitVec Format.binary64.numBits)
    : (UnpackedFloat.unpack Format.binary64 bits).isNaN = true
      ↔ UnpackedFloat.unpackExponent bits = -1#11 ∧ UnpackedFloat.unpackMantissa bits ≠ 0#52 := by
  simp only [UnpackedFloat.unpack]
  split
  · split <;> simp_all [UnpackedFloat.isNaN]
  · split
    · split <;> simp_all [UnpackedFloat.isNaN]
    · simp_all [UnpackedFloat.isNaN]

/-- What is packed from a number is a number: no finite one gets the highest exponent, and the
infinities get no mantissa.
-/
theorem isNaN_pack {value : UnpackedFloat} (number : value.isNaN = false)
    : (Float.ofModel (pack value)).isNaN = false := by
  change (UnpackedFloat.unpack Format.binary64 (UnpackedFloat.pack Format.binary64 value)).isNaN
    = false
  rw [Bool.eq_false_iff]
  intro none
  obtain ⟨exponent, mantissa⟩ := (isNaN_unpack_iff _).mp none
  revert exponent mantissa
  fun_cases UnpackedFloat.pack with
  | case1 => simp [UnpackedFloat.isNaN] at number
  | case2 sign => simp [UnpackedFloat.packedInfinity]
  | case3 sign => simp [UnpackedFloat.packedZero]
  | case4 sign mantissa exponent positive biased overflow => simp [UnpackedFloat.packedInfinity]
  | case5 sign mantissa exponent positive bits biased fits normal =>
      intro same
      simp only [UnpackedFloat.unpackExponent_packComponents] at same
      have fields := congrArg BitVec.toNat same
      simp at fields fits
      omega
  | case6 sign mantissa exponent positive bits biased fits subnormal =>
      intro same
      simp only [UnpackedFloat.unpackExponent_packComponents] at same
      exact absurd same (by decide)

-----------------------------------------------------------------------------------------
-- Arithmetic
-----------------------------------------------------------------------------------------

/-- Rounding gives a number, finite or zero. -/
theorem isNaN_roundWithAccuracy (sign : UnpackedFloat.Sign) (mantissa : Nat) (exponent : Int)
    (accuracy : UnpackedFloat.Accuracy)
    : (UnpackedFloat.roundWithAccuracy Format.binary64 sign mantissa exponent accuracy).isNaN
      = false := by
  simp only [UnpackedFloat.roundWithAccuracy]
  split <;> rfl

/-- A whole number of units of some size is rounded to a number. -/
theorem isNaN_normalize (mantissa exponent : Int) (zero : UnpackedFloat.Sign)
    : (UnpackedFloat.normalize Format.binary64 mantissa exponent zero).isNaN = false := by
  simp only [UnpackedFloat.normalize]
  split
  · exact isNaN_roundWithAccuracy ..
  · rfl
  · exact isNaN_roundWithAccuracy ..

/-- Whether a double is finite but not zero. -/
def isDivisor : UnpackedFloat → Bool
  | .finite .. => true
  | _ => false

/-- A number times a finite one that is not zero is a number. -/
theorem isNaN_mul {left right : UnpackedFloat} (number : left.isNaN = false)
    (factor : isDivisor right = true)
    : (left.mul Format.binary64 right).isNaN = false := by
  cases right <;> simp only [isDivisor, Bool.false_eq_true] at factor
  cases left <;> simp only [UnpackedFloat.isNaN, Bool.true_eq_false] at number <;>
    simp only [UnpackedFloat.mul]
  · rfl
  · rfl
  · exact isNaN_roundWithAccuracy ..

/-- A number divided by a finite one that is not zero is a number. -/
theorem isNaN_div {left right : UnpackedFloat} (number : left.isNaN = false)
    (divisor : isDivisor right = true)
    : (left.div Format.binary64 right).isNaN = false := by
  cases right <;> simp only [isDivisor, Bool.false_eq_true] at divisor
  cases left <;> simp only [UnpackedFloat.isNaN, Bool.true_eq_false] at number <;>
    simp only [UnpackedFloat.div]
  · rfl
  · rfl
  · exact isNaN_roundWithAccuracy ..

/-- The sum of a finite number and a number is a number; only infinities cancel out. -/
theorem isNaN_add {left right : UnpackedFloat} (finite : left.isFinite = true)
    (number : right.isNaN = false)
    : (left.add Format.binary64 right).isNaN = false := by
  cases left <;> simp only [UnpackedFloat.isFinite, Bool.false_eq_true] at finite <;>
    cases right <;> simp only [UnpackedFloat.isNaN, Bool.true_eq_false] at number <;>
    simp only [UnpackedFloat.add, isNaN_normalize] <;>
    first
    | rfl
    | split <;> rfl

/-- The difference of a finite number and a number is a number. -/
theorem isNaN_sub {left right : UnpackedFloat} (finite : left.isFinite = true)
    (number : right.isNaN = false)
    : (left.sub Format.binary64 right).isNaN = false := by
  cases left <;> simp only [UnpackedFloat.isFinite, Bool.false_eq_true] at finite <;>
    cases right <;> simp only [UnpackedFloat.isNaN, Bool.true_eq_false] at number <;>
    simp only [UnpackedFloat.sub, isNaN_normalize] <;>
    first
    | rfl
    | split <;> rfl

theorem isNaN_neg {key : Float} (number : key.isNaN = false) : (-key).isNaN = false := by
  apply isNaN_pack
  change key.toModel.unpack.isNaN = false at number
  cases unpacked : key.toModel.unpack <;>
    simp_all [UnpackedFloat.neg, UnpackedFloat.isNaN]

/-- The powers of ten that are kept are finite and not zero, by checking all of them. -/
theorem isDivisor_power
    : ∀ power ∈ Float.exactlyRepresentablePowersOfTen.toList,
        isDivisor power.toModel.unpack = true := by
  decide

/-- A decimal number is rounded to a number, whether its powers of ten are kept or worked out. -/
theorem isNaN_ofScientific (mantissa : Nat) (negative : Bool) (exponent : Nat)
    : (Float.ofScientific mantissa negative exponent).isNaN = false := by
  unfold Float.ofScientific
  split
  · next small =>
      have whole : (mantissa.toUInt64.toFloat).isNaN = false := isNaN_pack (isNaN_normalize ..)
      dsimp only
      generalize found : getElem Float.exactlyRepresentablePowersOfTen exponent _ = power
      have factor : isDivisor power.toModel.unpack = true :=
        isDivisor_power power (by rw [← found]; simp)
      split
      · exact isNaN_pack (isNaN_div whole factor)
      · exact isNaN_pack (isNaN_mul whole factor)
  · apply isNaN_pack
    generalize (if negative = true then Int.negOfNat exponent else Int.ofNat exponent) = power
    unfold UnpackedFloat.ofScientific
    split
    · rfl
    · split
      · rfl
      · split
        · rfl
        · split
          · exact isNaN_mul rfl rfl
          · exact isNaN_div rfl rfl

theorem isNaN_ofInt (value : Int) : (Float.ofInt value).isNaN = false := by
  cases value with
  | ofNat absolute => exact isNaN_ofScientific absolute false 0
  | negSucc absolute => exact isNaN_neg (isNaN_ofScientific (absolute + 1) false 0)

theorem isNaN_of_isFinite {key : Float} (finite : key.isFinite = true) : key.isNaN = false := by
  change key.toModel.unpack.isFinite = true at finite
  change key.toModel.unpack.isNaN = false
  cases unpacked : key.toModel.unpack <;>
    simp_all [UnpackedFloat.isFinite, UnpackedFloat.isNaN]

/-- The key for a place among finite keys is a number, by cases on the place. -/
theorem isNaN_of_gap? {keys : List Float} {target : Nat} {before : Bool} {gap : Gap Float}
    (found : gap? keys target before = some gap)
    (finite : ∀ key ∈ keys, key.isFinite = true)
    : gap.key.isNaN = false := by
  have isFinite {index : Nat} {key : Float} (at_ : keys[index]? = some key)
      : key.isFinite = true := finite key (List.mem_of_getElem? at_)
  have one : (1.0 : Float).isNaN = false := by decide
  have half {key : Float} (number : key.isNaN = false) : (OrderKey.half key).isNaN = false :=
    isNaN_pack (isNaN_div number (by decide))
  unfold gap? at found
  split at found
  · simp at found
  · next key atTarget =>
      split at found
      · split at found
        · obtain rfl := Option.some.inj found
          simp only [Gap.key, OrderKey.below]
          split
          · exact half (isNaN_of_isFinite (isFinite atTarget))
          · exact isNaN_pack (isNaN_sub (isFinite atTarget) one)
        · obtain ⟨low, atLow, rfl⟩ := Option.map_eq_some_iff.mp found
          exact half (isNaN_pack (isNaN_add (isFinite atLow)
            (isNaN_of_isFinite (isFinite atTarget))))
      · split at found
        · obtain rfl := Option.some.inj found
          exact isNaN_pack (isNaN_add (isFinite atTarget) one)
        · next next atNext =>
            obtain rfl := Option.some.inj found
            exact half (isNaN_pack (isNaN_add (isFinite atTarget)
              (isNaN_of_isFinite (isFinite atNext))))

instance : Lawful Float where
  IsFinite key := key.isFinite = true
  lt_asymm {low high} below above := by
    have before := ((lt_iff_precedes low high).mp below).2.2
    have after := ((lt_iff_precedes high low).mp above).2.2
    simp only [Precedes] at before after
    omega
  lt_or_lt {low middle high} number below := by
    obtain ⟨lowNumber, highNumber, before⟩ := (lt_iff_precedes low high).mp below
    have middleNumber := beq_self_iff.mp number
    rw [show low < middle ↔ _ from lt_iff_precedes low middle,
      show middle < high ↔ _ from lt_iff_precedes middle high]
    simp only [lowNumber, middleNumber, highNumber, true_and]
    simp only [Precedes] at before ⊢
    omega
  beq_symm {left right} same := by
    obtain ⟨leftNumber, rightNumber, places⟩ := (beq_iff_place left right).mp same
    exact (beq_iff_place right left).mpr ⟨rightNumber, leftNumber, places.symm⟩
  beq_trans {first second third} same next := by
    obtain ⟨firstNumber, _, places⟩ := (beq_iff_place first second).mp same
    obtain ⟨_, thirdNumber, nextPlaces⟩ := (beq_iff_place second third).mp next
    exact (beq_iff_place first third).mpr ⟨firstNumber, thirdNumber, places.trans nextPlaces⟩
  not_lt_of_beq {left right} same below := by
    have places := ((beq_iff_place left right).mp same).2.2
    have before := ((lt_iff_precedes left right).mp below).2.2
    simp only [Precedes, places] at before
    omega
  sortsBefore_total left right := by
    simp only [sortsBefore, Bool.or_eq_true, decide_eq_true_iff]
    omega
  sortsBefore_trans first second third := by
    simp only [sortsBefore, decide_eq_true_iff]
    omega
  not_lt_of_sortsBefore {left right} sorted below := by
    have ranks := totalRank_lt_of_lt below
    simp only [sortsBefore, decide_eq_true_iff] at sorted
    omega
  isFinite_first := by decide
  beq_self_of_isFinite finite := beq_self_iff.mpr (isNaN_of_isFinite finite)
  beq_self_of_gap? found finite := beq_self_iff.mpr (isNaN_of_gap? found finite)

end SharedBoard.OrderKey
