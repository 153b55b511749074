import Mathlib
import SharedBoard.Decimal.Shortest
import SharedBoard.Proofs.Decimal.Reading

/-! The shortest decimal that rounds to a double is a positive number of seventeen digits at most.
It is no further above the double than half a unit in the last place, or a unit of the last grid.
-/

namespace SharedBoard.Decimal

-----------------------------------------------------------------------------------------
-- Exact values
-----------------------------------------------------------------------------------------

/-- The number that a decimal stands for. -/
def Scaled.value (decimal : Scaled) : ℚ :=
  decimal.digits * 10 ^ decimal.exponent

/-- The number that a mantissa and an exponent stand for. -/
def Binary.value (binary : Binary) : ℚ :=
  binary.mantissa * 2 ^ binary.exponent

theorem Binary.value_pos {binary : Binary} (positive : 0 < binary.mantissa) : 0 < binary.value := by
  have : (0 : ℚ) < binary.mantissa := by exact_mod_cast positive
  unfold value
  positivity

/-- A power is a quotient of two with natural exponents, one of which is one. -/
theorem zpow_eq_div (base : ℚ) (exponent : Int)
    : base ^ exponent = base ^ exponent.toNat / base ^ (-exponent).toNat := by
  rcases Int.le_total 0 exponent with whole | fraction
  · obtain ⟨places, rfl⟩ := Int.eq_ofNat_of_zero_le whole
    simp
  · obtain ⟨places, rfl⟩ := Int.exists_eq_neg_ofNat fraction
    simp

/-- The integers that are compared compare as the numbers that they stand for. -/
theorem below_iff (decimal : Scaled) (binary : Binary)
    : (below decimal binary false = true ↔ decimal.value ≤ binary.value)
      ∧ (below decimal binary true = true ↔ decimal.value < binary.value) := by
  have first : (0 : ℚ) < 10 ^ (-decimal.exponent).toNat := by positivity
  have second : (0 : ℚ) < 2 ^ (-binary.exponent).toNat := by positivity
  rw [Scaled.value, Binary.value, zpow_eq_div, zpow_eq_div 2, mul_div_assoc', mul_div_assoc',
    div_le_div_iff₀ first second, div_lt_div_iff₀ first second]
  simp only [below, Bool.false_eq_true, if_false, if_true, decide_eq_true_eq, Nat.pow_eq]
  constructor <;> norm_cast

/-- The value of a binary number is the quotient of its numerator and its denominator. -/
theorem Binary.value_eq_fraction (binary : Binary)
    : binary.value = binary.fraction.1 / binary.fraction.2 := by
  rw [value, zpow_eq_div, mul_div_assoc', fraction]
  push_cast [Nat.pow_eq]
  rfl

theorem Binary.fraction_pos {binary : Binary} (positive : 0 < binary.mantissa)
    : 0 < binary.fraction.1 ∧ 0 < binary.fraction.2 :=
  ⟨Nat.mul_pos positive (Nat.pow_pos (by decide)), Nat.pow_pos (by decide)⟩

-----------------------------------------------------------------------------------------
-- Grids
-----------------------------------------------------------------------------------------

/-- A number has as many digits as its power of ten says. -/
theorem length_ofNat {number : Nat} (positive : 0 < number)
    : 0 < (ofNat number).length
      ∧ 10 ^ ((ofNat number).length - 1) ≤ number
      ∧ number < 10 ^ (ofNat number).length := by
  have some : 0 < (ofNat number).length := List.length_pos_of_ne_nil (ofNat_ne_nil number)
  refine ⟨some, ?_, (Nat.length_toDigits_le_iff (by decide) some).mp le_rfl⟩
  rcases Nat.eq_zero_or_pos ((ofNat number).length - 1) with one | more
  · rw [one]
    exact positive
  · by_contra less
    have := (Nat.length_toDigits_le_iff (show 1 < 10 by decide) more).mpr (Nat.not_le.mp less)
    change (ofNat number).length ≤ _ at this
    omega

/-- The first digit of a number stands at its magnitude, whether or not it is a fraction of one. -/
theorem Binary.value_bounds {binary : Binary} (positive : 0 < binary.mantissa)
    : (10 : ℚ) ^ (binary.magnitude - 1) ≤ binary.value
      ∧ binary.value < 10 ^ binary.magnitude := by
  obtain ⟨numeratorPositive, denominatorPositive⟩ := fraction_pos positive
  have above : (0 : ℚ) < binary.fraction.2 := by exact_mod_cast denominatorPositive
  rw [value_eq_fraction, div_lt_iff₀ above, le_div_iff₀ above]
  unfold magnitude
  dsimp only
  generalize binary.fraction.1 = numerator at numeratorPositive ⊢
  generalize binary.fraction.2 = denominator at denominatorPositive above ⊢
  split
  · next whole =>
      obtain ⟨some, low, high⟩ := length_ofNat (Nat.div_pos whole denominatorPositive)
      generalize (ofNat (numerator / denominator)).length = length at some low high
      rw [Nat.le_div_iff_mul_le denominatorPositive] at low
      rw [Nat.div_lt_iff_lt_mul denominatorPositive] at high
      rw [show (length : Int) - 1 = (length - 1 : Nat) by omega, zpow_natCast, zpow_natCast]
      exact ⟨by exact_mod_cast low, by exact_mod_cast high⟩
  · next fraction =>
      obtain ⟨some, low, high⟩ := length_ofNat
        (Nat.div_pos (show numerator ≤ denominator - 1 by omega) numeratorPositive)
      generalize (ofNat ((denominator - 1) / numerator)).length = length at some low high
      rw [Nat.le_div_iff_mul_le numeratorPositive] at low
      rw [Nat.div_lt_iff_lt_mul numeratorPositive] at high
      have least : denominator ≤ 10 ^ length * numerator := by omega
      have most : 10 ^ (length - 1) * numerator < denominator := by omega
      rw [show (1 : Int) - length - 1 = -length by omega,
        show (1 : Int) - length = -(length - 1 : Nat) by omega, zpow_neg, zpow_neg, zpow_natCast,
        zpow_natCast, inv_mul_le_iff₀ (by positivity), lt_inv_mul_iff₀ (by positivity)]
      exact ⟨by exact_mod_cast least, by exact_mod_cast most⟩

/-- The neighbours of a value on a grid are on it, and no more than a unit of it away. -/
theorem mem_neighbours {binary : Binary} {exponent : Int} {decimal : Scaled}
    (found : decimal ∈ neighbours binary exponent) (positive : 0 < binary.mantissa)
    : decimal.exponent = exponent
      ∧ decimal.value ≤ binary.value + 10 ^ exponent
      ∧ binary.value < decimal.value + 10 ^ exponent := by
  obtain ⟨_, denominatorPositive⟩ := Binary.fraction_pos positive
  have unit : (0 : ℚ) < 10 ^ exponent := by positivity
  have scaled : binary.value
      = (binary.fraction.1 * 10 ^ (-exponent).toNat : Nat)
          / (binary.fraction.2 * 10 ^ exponent.toNat : Nat) * 10 ^ exponent := by
    rw [binary.value_eq_fraction, zpow_eq_div]
    push_cast
    field_simp
  simp only [neighbours, Nat.pow_eq] at found
  have above : 0 < binary.fraction.2 * 10 ^ exponent.toNat :=
    Nat.mul_pos denominatorPositive (by positivity)
  generalize binary.fraction.1 * 10 ^ (-exponent).toNat = numerator at found scaled
  generalize binary.fraction.2 * 10 ^ exponent.toNat = denominator at found scaled above
  have aboveCast : (0 : ℚ) < denominator := by exact_mod_cast above
  have low : ((numerator / denominator : Nat) : ℚ) ≤ (numerator : ℚ) / denominator :=
    Nat.cast_div_le
  have high : (numerator : ℚ) / denominator < (numerator / denominator : Nat) + 1 := by
    rw [div_lt_iff₀ aboveCast]
    exact_mod_cast (Nat.div_lt_iff_lt_mul above).mp (Nat.lt_succ_self (numerator / denominator))
  have near : decimal = ⟨numerator / denominator, exponent⟩
      ∨ decimal = ⟨numerator / denominator + 1, exponent⟩ := by
    split at found <;> simp only [List.mem_cons, List.not_mem_nil, or_false] at found
    · exact found
    · exact found.symm
  rw [scaled]
  generalize (numerator : ℚ) / denominator = ratio at low high
  rcases near with rfl | rfl
  · refine ⟨rfl, ?_, ?_⟩
    · unfold Scaled.value
      nlinarith
    · unfold Scaled.value
      nlinarith
  · refine ⟨rfl, ?_, ?_⟩
    · unfold Scaled.value
      push_cast
      nlinarith
    · unfold Scaled.value
      push_cast
      nlinarith

/-- The shortest decimal is a neighbour of the value on one of seventeen grids. It is in the
interval of the value unless the grid is the last one.
-/
theorem shortestFrom_mem (binary : Binary) (magnitude : Int) {grids : Nat} (most : grids ≤ 16)
    : ∃ exponent, magnitude - 17 ≤ exponent
      ∧ shortestFrom binary magnitude grids ∈ neighbours binary exponent
      ∧ (roundsTo binary (shortestFrom binary magnitude grids) = true
        ∨ exponent = magnitude - 17) := by
  induction grids with
  | zero =>
      refine ⟨magnitude - 17, le_rfl, ?_, .inr rfl⟩
      rw [shortestFrom]
      simp only [neighbours]
      split <;> exact List.mem_cons_self
  | succ grids ih =>
      rw [shortestFrom]
      split
      · next decimal found =>
          exact ⟨_, by omega, List.mem_of_find?_eq_some found, .inl (List.find?_some found)⟩
      · exact ih (by omega)

/-- Comparison in either sense, strict or not, bounds a decimal by a binary number. -/
theorem le_of_below {decimal : Scaled} {binary : Binary} {strict : Bool}
    (compared : below decimal binary strict = true)
    : decimal.value ≤ binary.value := by
  cases strict with
  | false => exact (below_iff decimal binary).1.mp compared
  | true => exact ((below_iff decimal binary).2.mp compared).le

theorem le_of_above {decimal : Scaled} {binary : Binary} {strict : Bool}
    (compared : above decimal binary strict = true)
    : binary.value ≤ decimal.value := by
  rw [above, Bool.not_eq_true', ← Bool.not_eq_true] at compared
  cases strict with
  | false => exact not_lt.mp (mt (below_iff decimal binary).2.mpr compared)
  | true => exact (not_le.mp (mt (below_iff decimal binary).1.mpr compared)).le

/-- A decimal in the interval of a value is above zero, and above the value by half a unit in the
last place at most.
-/
theorem value_of_roundsTo {binary : Binary} {decimal : Scaled} (positive : 0 < binary.mantissa)
    (inside : roundsTo binary decimal = true)
    : 0 < decimal.value ∧ decimal.value ≤ binary.value + 2 ^ (binary.exponent - 1) := by
  simp only [roundsTo, Bool.and_eq_true] at inside
  obtain ⟨low, high⟩ := inside
  constructor
  · refine (Binary.value_pos ?_).trans_le (le_of_above low)
    dsimp only
    split <;> omega
  · refine (le_of_below high).trans_eq ?_
    have quarter : (2 : ℚ) ^ binary.exponent = 4 * 2 ^ (binary.exponent - 2) := by
      rw [zpow_sub₀ (by norm_num)]
      norm_num
      ring
    have half : (2 : ℚ) ^ (binary.exponent - 1) = 2 * 2 ^ (binary.exponent - 2) := by
      rw [zpow_sub₀ (by norm_num), zpow_sub₀ (by norm_num)]
      ring
    rw [Binary.value, Binary.value, quarter, half]
    push_cast
    ring

-----------------------------------------------------------------------------------------
-- The shortest decimal
-----------------------------------------------------------------------------------------

/-- The shortest decimal is a positive number of seventeen digits at most. It is above its value by
half a unit in the last place at most, or by a unit of the last grid.
-/
theorem shortest_bounds {binary : Binary} (positive : 0 < binary.mantissa)
    : 0 < (shortest binary).digits
      ∧ (shortest binary).digits ≤ 10 ^ 17
      ∧ (shortest binary).value
        ≤ binary.value + max (2 ^ (binary.exponent - 1)) (10 ^ (binary.magnitude - 17)) := by
  obtain ⟨exponent, fine, near, inside⟩ := shortestFrom_mem binary binary.magnitude le_rfl
  change shortest binary ∈ _ at near
  change roundsTo binary (shortest binary) = true ∨ _ at inside
  obtain ⟨onGrid, notAbove, notBelow⟩ := mem_neighbours near positive
  obtain ⟨low, high⟩ := Binary.value_bounds positive
  have unit : (0 : ℚ) < 10 ^ exponent := by positivity
  have value : (shortest binary).value = (shortest binary).digits * 10 ^ exponent := by
    rw [Scaled.value, onGrid]
  generalize (shortest binary).digits = digits at value
  refine ⟨?_, ?_, ?_⟩
  · rcases inside with inside | rfl
    · have above := (value_of_roundsTo positive inside).1
      rw [value] at above
      exact_mod_cast (mul_pos_iff_of_pos_right unit).mp above
    · have first : (10 : ℚ) ^ (binary.magnitude - 1)
          = 10 ^ 16 * 10 ^ (binary.magnitude - 17) := by
        rw [← zpow_natCast, ← zpow_add₀ (by norm_num)]
        congr 1
        omega
      have enough : ((10 ^ 16 : Nat) : ℚ) < digits + 1 := by
        push_cast
        nlinarith
      have : 10 ^ 16 < digits + 1 := by exact_mod_cast enough
      omega
  · have most : (10 : ℚ) ^ binary.magnitude ≤ 10 ^ 17 * 10 ^ exponent := by
      rw [← zpow_natCast, ← zpow_add₀ (by norm_num)]
      exact zpow_le_zpow_right₀ (by norm_num) (by omega)
    have few : (digits : ℚ) < (10 ^ 17 + 1 : Nat) := by
      push_cast
      nlinarith
    exact Nat.le_of_lt_succ (by exact_mod_cast few)
  · rcases inside with inside | rfl
    · exact (value_of_roundsTo positive inside).2.trans (by gcongr; exact le_max_left ..)
    · exact notAbove.trans (by gcongr; exact le_max_right ..)

-----------------------------------------------------------------------------------------
-- Digits
-----------------------------------------------------------------------------------------

/-- The digits of a positive decimal without trailing zeros, which the exponent makes up for. -/
theorem trimmed_spec {decimal : Scaled} (positive : 0 < decimal.digits)
    : ∃ digits places, decimal.trimmed = (digits, decimal.exponent + (places : Nat))
      ∧ digits ≠ []
      ∧ (∀ char ∈ digits, char.isDigit = true)
      ∧ digits.head? ≠ some '0'
      ∧ toNat digits * 10 ^ places = decimal.digits := by
  have zeros : (ofNat decimal.digits).reverse.takeWhile (· == '0')
      = List.replicate ((ofNat decimal.digits).reverse.takeWhile (· == '0')).length '0' :=
    List.eq_replicate_of_mem fun char found => by simpa using List.mem_takeWhile_imp found
  have parts : ofNat decimal.digits
      = ((ofNat decimal.digits).reverse.dropWhile (· == '0')).reverse
        ++ ((ofNat decimal.digits).reverse.takeWhile (· == '0')).reverse := by
    rw [← List.reverse_append, List.takeWhile_append_dropWhile, List.reverse_reverse]
  rw [zeros, List.reverse_replicate] at parts
  have length := congrArg List.length parts
  rw [List.length_append, List.length_replicate] at length
  have trimmed : decimal.trimmed = (((ofNat decimal.digits).reverse.dropWhile (· == '0')).reverse,
      decimal.exponent
        + ((ofNat decimal.digits).reverse.takeWhile (· == '0')).length) := by
    rw [Scaled.trimmed]
    congr 2
    omega
  generalize ((ofNat decimal.digits).reverse.takeWhile (· == '0')).length = places
    at parts trimmed
  generalize ((ofNat decimal.digits).reverse.dropWhile (· == '0')).reverse = kept
    at parts trimmed
  have number : toNat kept * 10 ^ places = decimal.digits := by
    rw [← toNat_ofNat decimal.digits, parts, toNat, toNat, Nat.ofDigitChars_append,
      Nat.ofDigitChars_replicate_zero, Nat.mul_comm]
  have some : kept ≠ [] := by
    rintro rfl
    simp [toNat] at number
    omega
  refine ⟨kept, places, trimmed, some, fun char found => ?_, fun leading => ?_, number⟩
  · refine @isDigit_of_mem_ofNat decimal.digits char ?_
    rw [parts]
    exact List.mem_append_left _ found
  · refine positive.ne' (eq_zero_of_head?_ofNat ?_)
    rw [parts, List.head?_append_of_ne_nil _ some, leading]

end SharedBoard.Decimal
