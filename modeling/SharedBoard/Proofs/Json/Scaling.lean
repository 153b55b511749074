import SharedBoard.Json.Reader
import SharedBoard.Proofs.Rounding.Overflow

/-! Scaling of significands by powers of ten. The powers that scale are rounded from powers of ten,
so a value that is scaled down stays finite, and so does a value that is scaled up below the range.
-/

namespace SharedBoard.Json

open Float.Model
open Rounding (RoundedTo roundedUp)

-----------------------------------------------------------------------------------------
-- Powers of ten
-----------------------------------------------------------------------------------------

theorem pow_ten_pos (places : Nat) : 0 < 10 ^ places :=
  Nat.pow_pos (by decide)

/-- Powers of ten that fit into a mantissa are not rounded, by checking all of them. -/
theorem powerOfTen_short
    : ∀ places : Fin 16,
        powerOfTen places
        = .ofModel (pack (.finite .positive (Rounding.full (10 ^ places.val))
            ((10 ^ places.val).log2 - 52) (Rounding.full_pos (pow_ten_pos places)))) := by
  decide +kernel

/-- The power of ten that is worked out in whole and rounded once. -/
def roundedPower (places : Nat) : Float :=
  .ofModel (pack (UnpackedFloat.roundWithAccuracy Format.binary64 .positive (10 ^ places * 2 ^ 53)
    (-(53 : Nat)) .exact))

/-- The powers that are kept are what they are rounded to, by checking those that are long. -/
theorem powerOfTen_kept : ∀ more : Fin 7, powerOfTen (16 + more) = roundedPower (16 + more) := by
  decide +kernel

/-- Other powers of ten are worked out in whole and rounded once. -/
theorem powerOfTen_long {places : Nat} (long : 16 ≤ places) (within : places ≤ mostPlaces)
    : powerOfTen places = roundedPower places := by
  rcases Nat.lt_or_ge places 23 with few | many
  · have kept := powerOfTen_kept ⟨places - 16, by omega⟩
    rwa [show 16 + (places - 16) = places by omega] at kept
  · have noTable : ¬((1 : Nat) < 2 ^ 53 ∧ places ≤ 22) := by omega
    have bound : places ≤ 308 := within
    rw [powerOfTen, Float.ofScientific, dif_neg noTable]
    change Float.ofModel (pack (UnpackedFloat.ofScientific Format.binary64 1 (places : Int))) = _
    have exponents : (2 : Int) ^ Format.binary64.exponentBits = 2048 := rfl
    rw [UnpackedFloat.ofScientific, dif_neg (by decide), exponents, if_neg (by omega),
      if_neg (by omega), if_pos (by omega), roundedPower, Nat.mul_comm]
    rfl

/-- The powers that scale are what the powers of ten are rounded to. -/
theorem roundedTo_powerOfTen {places : Nat} (within : places ≤ mostPlaces)
    : ∃ mantissa exponent, RoundedTo (10 ^ places) (powerOfTen places) mantissa exponent := by
  rcases Nat.lt_or_ge places 16 with few | many
  · have short : 10 ^ places < 2 ^ 53 :=
      (Nat.pow_le_pow_right (by decide) (Nat.le_of_lt_succ few)).trans_lt (by decide)
    have log : (10 ^ places).log2 < 53 := (Nat.log2_lt (pow_ten_pos places).ne').mpr short
    refine ⟨_, _, Rounding.roundedTo_of_short (pow_ten_pos places) short ?_⟩
    have parts := powerOfTen_short ⟨places, few⟩
    dsimp only at parts
    rw [parts]
    exact Rounding.unpack_pack _ (Rounding.log2_full (pow_ten_pos places) short) (by omega)
      (by omega)
  · rw [powerOfTen_long many within]
    have long : 2 ^ 53 ≤ 10 ^ places :=
      (show 2 ^ 53 ≤ 10 ^ 16 by decide).trans (Nat.pow_le_pow_right (by decide) many)
    have limit : roundedUp (10 ^ places) < 2 ^ 1024 :=
      (Rounding.roundedUp_mono (Nat.pow_le_pow_right (by decide) within)).trans_lt
        (by decide +kernel)
    exact Rounding.roundedTo_of_long long limit 53 (by decide)

-----------------------------------------------------------------------------------------
-- Scaling
-----------------------------------------------------------------------------------------

/-- A finite value stays finite when it is scaled down, by induction on the steps. -/
theorem isFinite_scaleDown {steps places : Nat} {value : Float} (finite : value.isFinite = true)
    (more : mostPlaces * steps < places) (within : places ≤ mostPlaces * (steps + 1))
    : (scaleDown steps value places).isFinite = true := by
  have ten {places : Nat} (some : 0 < places) : 10 ≤ 10 ^ places :=
    Nat.le_self_pow some.ne' 10
  induction steps generalizing value places with
  | zero =>
      obtain ⟨mantissa, exponent, rounded⟩ :=
        roundedTo_powerOfTen (show places ≤ mostPlaces by omega)
      exact Rounding.isFinite_div finite rounded (ten (by omega))
  | succ steps ih =>
      unfold scaleDown
      split
      · exact finite
      · obtain ⟨mantissa, exponent, rounded⟩ := roundedTo_powerOfTen (Nat.le_refl mostPlaces)
        rw [Nat.mul_succ] at more within
        exact ih (Rounding.isFinite_div finite rounded (ten (by decide))) (by omega) (by omega)

/-- A number that is below the greatest doubles by two places in the last of seventeen digits. -/
@[irreducible]
def highest : Nat :=
  (2 ^ 53 - 3) * 2 ^ 971 + 10 ^ 292

theorem cast_highest
    : (highest : ℚ) = (2 ^ 53 - 3 : Nat) * 2 ^ (971 : Int) + 10 ^ (292 : Int) := by
  have cast (places others : Nat)
      : (((2 ^ 53 - 3) * 2 ^ places + 10 ^ others : Nat) : ℚ)
        = (2 ^ 53 - 3 : Nat) * 2 ^ (places : Int) + 10 ^ (others : Int) := by
    rw [Nat.cast_add, Nat.cast_mul, Nat.cast_pow, Nat.cast_pow, zpow_natCast, zpow_natCast,
      Nat.cast_ofNat, Nat.cast_ofNat]
  unfold highest
  exact cast 971 292

theorem highest_lt : highest < 10 ^ (mostPlaces + 1) := by
  decide +kernel

/-- No significand of seventeen digits is scaled up to the greatest double if it stands for a number
that is not too high, by checking the greatest such significand for every power.
-/
theorem scaled_lt_greatestDouble
    : ∀ places : Fin (mostPlaces + 1),
        roundedUp (min (10 ^ 17) (highest / 10 ^ places.val)) * roundedUp (10 ^ places.val)
        < Rounding.greatestDouble := by
  decide +kernel

/-- A significand is finite when it is scaled up, if it stands for a number that is not too high. -/
theorem isFinite_scaleUp {significand places : Nat} (positive : 0 < significand)
    (short : significand ≤ 10 ^ 17) (within : significand * 10 ^ places ≤ highest)
    : places ≤ mostPlaces
      ∧ (significand.toUInt64.toFloat * powerOfTen places).isFinite = true := by
  have below : 10 ^ places < 10 ^ (mostPlaces + 1) :=
    ((Nat.le_mul_of_pos_left _ positive).trans within).trans_lt highest_lt
  have few : places ≤ mostPlaces := by
    have := (Nat.pow_lt_pow_iff_right (show 1 < 10 by decide)).mp below
    omega
  obtain ⟨mantissa, exponent, left⟩ :=
    Rounding.roundedTo_toFloat positive (short.trans_lt (by decide))
  obtain ⟨other, otherExponent, right⟩ := roundedTo_powerOfTen few
  have least : significand ≤ min (10 ^ 17) (highest / 10 ^ places) :=
    le_min short ((Nat.le_div_iff_mul_le (pow_ten_pos places)).mpr within)
  refine ⟨few, left.isFinite_mul right ?_⟩
  calc roundedUp significand * roundedUp (10 ^ places)
    _ ≤ roundedUp (min (10 ^ 17) (highest / 10 ^ places)) * roundedUp (10 ^ places) :=
        Nat.mul_le_mul_right _ (Rounding.roundedUp_mono least)
    _ < Rounding.greatestDouble := scaled_lt_greatestDouble ⟨places, Nat.lt_succ_of_le few⟩

/-- A decimal literal denotes a finite double if it does so when it is scaled up. -/
theorem exists_ofDecimalLiteral (negative : Bool) {significand : Nat} {exponent : Int}
    (positive : 0 < significand) (short : significand < 2 ^ 64)
    (up : 0 ≤ exponent → exponent.toNat ≤ mostPlaces
      ∧ (significand.toUInt64.toFloat * powerOfTen exponent.toNat).isFinite = true)
    : ∃ read, ofDecimalLiteral negative significand exponent = .float read
      ∧ read.isFinite = true := by
  have signed {magnitude : Float} (finite : magnitude.isFinite = true)
      : ∃ read, ofMagnitude negative magnitude = .float read ∧ read.isFinite = true := by
    rw [ofMagnitude, Rounding.isInf_of_isFinite finite]
    refine ⟨_, rfl, ?_⟩
    cases negative with
    | false => exact finite
    | true => exact Rounding.isFinite_neg finite
  obtain ⟨_, _, rounded⟩ := Rounding.roundedTo_toFloat positive short
  simp only [ofDecimalLiteral]
  split
  · have steps := Nat.div_add_mod (exponent.natAbs - 1) mostPlaces
    have rest := Nat.mod_lt (exponent.natAbs - 1) (show 0 < mostPlaces by decide)
    refine signed (isFinite_scaleDown rounded.isFinite (by omega) ?_)
    rw [Nat.mul_succ]
    omega
  · obtain ⟨few, finite⟩ := up (by omega)
    rw [if_pos (by omega)]
    exact signed finite

end SharedBoard.Json
