import SharedBoard.Proofs.Decimal.Shortest
import SharedBoard.Proofs.Json.Literals
import SharedBoard.Proofs.Json.Scaling

/-! Doubles are read again from their shortest texts. The text of a finite double is a literal, and
a literal that is scaled by a power of ten becomes a finite double: mostly the one that was written,
and a neighbour of it in other cases.
-/

namespace SharedBoard.Json

open Decimal (EndsDigits spanDigits_append)

-----------------------------------------------------------------------------------------
-- Literals
-----------------------------------------------------------------------------------------

/-- A run of digits stands for less than its power of ten, by induction on the run. -/
theorem toNat_lt_pow {digits : List Char} (run : ∀ char ∈ digits, char.isDigit = true)
    : Decimal.toNat digits < 10 ^ digits.length := by
  induction digits with
  | nil => decide
  | cons char rest ih =>
      obtain ⟨digit, others⟩ := List.forall_mem_cons.mp run
      have few := ih others
      have value : char.toNat - '0'.toNat ≤ 9 := by
        simp [Char.isDigit, UInt32.le_iff_toNat_le] at digit
        change char.toNat - 48 ≤ 9
        omega
      rw [Decimal.toNat, Nat.ofDigitChars_cons, Nat.ofDigitChars_eq_ofDigitChars_zero,
        Nat.mul_zero, Nat.zero_add, List.length_cons, pow_succ]
      change _ + Decimal.toNat rest < _
      nlinarith [Nat.mul_le_mul_left (10 ^ rest.length) value]

/-- Digits are all there when they are read with zeros in front. -/
theorem toNat_zeros_append (zeros : Nat) (digits : List Char)
    : Decimal.toNat (List.replicate zeros '0' ++ digits) = Decimal.toNat digits := by
  rw [Decimal.toNat, Nat.ofDigitChars_append, Nat.ofDigitChars_replicate_zero, Nat.mul_zero]
  rfl

/-- Zeros are digits. -/
theorem isDigit_zeros (zeros : Nat) : ∀ char ∈ List.replicate zeros '0', char.isDigit = true := by
  intro char found
  rw [(List.mem_replicate.mp found).2]
  rfl

/-- The digits after a point are read as the fraction. -/
theorem readFraction?_digits {fraction after : List Char} (some : fraction ≠ [])
    (run : ∀ char ∈ fraction, char.isDigit = true) (ends : EndsDigits after)
    : readFraction? ('.' :: (fraction ++ after)) = .some (.some fraction, after) := by
  simp [readFraction?, spanDigits_append run ends, some]

/-- A written power is read back. -/
theorem readExponent?_written (power : Int)
    : readExponent? ('e' :: ((if power < 0 then ['-'] else []) ++ Decimal.ofNat power.natAbs))
      = some (some power, []) := by
  have digits := spanDigits_append (fun _ => @Decimal.isDigit_of_mem_ofNat power.natAbs _) .nil
  rw [List.append_nil] at digits
  have read (negative : Bool) : readPower? negative (Decimal.ofNat power.natAbs)
      = some (some (if negative then -(power.natAbs : Int) else power.natAbs), []) := by
    simp [readPower?, digits, Decimal.ofNat_ne_nil]
  split
  · next below =>
      have value : -(power.natAbs : Int) = power := by omega
      have written : readExponent? ('e' :: '-' :: Decimal.ofNat power.natAbs)
          = readPower? true (Decimal.ofNat power.natAbs) := rfl
      rw [read true, if_pos rfl, value] at written
      exact written
  · next above =>
      have value : (power.natAbs : Int) = power := by omega
      obtain ⟨head, rest, same, digit⟩ := Decimal.exists_ofNat power.natAbs
      have noPlus : head ≠ '+' := Decimal.ne_of_isDigit digit (by decide)
      have noMinus : head ≠ '-' := Decimal.ne_of_isDigit digit (by decide)
      have unsigned := read false
      rw [same] at unsigned ⊢
      simpa [readExponent?, noPlus, noMinus, value] using unsigned

/-- A number is read from its digits before the point, its fraction and its power. -/
theorem readUnsigned?_of_parts (negative : Bool) {whole rest middle : List Char}
    {fraction : Option (List Char)} {power : Option Int} (given : whole ≠ [])
    (run : ∀ char ∈ whole, char.isDigit = true)
    (leading : whole.head? ≠ some '0' ∨ whole.length = 1) (ends : EndsDigits rest)
    (atFraction : readFraction? rest = some (fraction, middle))
    (atPower : readExponent? middle = some (power, []))
    : readUnsigned? negative (whole ++ rest)
      = some (ofLiteral negative whole fraction power, []) := by
  have noZero : (whole.isEmpty || (whole.head? == some '0' && 1 < whole.length)) = false := by
    simp only [Bool.or_eq_false_iff, Bool.and_eq_false_iff, List.isEmpty_eq_false_iff]
    exact ⟨given, leading.imp (by simp) (by simp +contextual)⟩
  rw [readUnsigned?]
  simp only [spanDigits_append run ends, noZero, Bool.false_eq_true, if_false, atFraction, atPower,
    Option.bind_eq_bind, Option.bind_some]

/-- A text is read as a literal that stands for digits with an exponent, or for a number with a
fraction. The literal keeps all of its digits.
-/
def ReadsDigits (negative : Bool) (digits : List Char) (exponent : Int) (text : List Char) : Prop :=
  ∃ significand power,
    readUnsigned? negative text = some (ofDecimalLiteral negative significand power, [])
    ∧ 0 < significand
    ∧ significand ≤ greatestSignificand
    ∧ (power < 0 ∨ significand = Decimal.toNat digits ∧ power = exponent)

section

variable {digits : List Char} (negative : Bool) (run : ∀ char ∈ digits, char.isDigit = true)
  (leading : digits.head? ≠ some '0') (positive : 0 < Decimal.toNat digits)
include run leading positive

/-- Digits with zeros after them up to the point are read back. -/
theorem readsDigits_whole (exponent : Int) {places : Nat} (few : digits.length + places ≤ 16)
    : ReadsDigits negative digits exponent
        (digits ++ List.replicate places '0' ++ ['.', '0']) := by
  have given : digits ≠ [] := by
    rintro rfl
    exact absurd positive (by decide)
  have zeros : ∀ char ∈ digits ++ List.replicate places '0', char.isDigit = true :=
    List.forall_mem_append.mpr ⟨run, isDigit_zeros places⟩
  have number : Decimal.toNat (digits ++ List.replicate places '0' ++ ['0'])
      = 10 ^ (places + 1) * Decimal.toNat digits := by
    rw [List.append_assoc, ← List.replicate_succ', Decimal.toNat, Nat.ofDigitChars_append,
      Nat.ofDigitChars_replicate_zero]
    rfl
  have fits : Decimal.toNat (digits ++ List.replicate places '0' ++ ['0'])
      ≤ greatestSignificand := by
    have less := toNat_lt_pow run
    calc Decimal.toNat (digits ++ List.replicate places '0' ++ ['0'])
      _ = 10 ^ (places + 1) * Decimal.toNat digits := number
      _ ≤ 10 ^ (places + 1) * 10 ^ digits.length := Nat.mul_le_mul_left _ less.le
      _ = 10 ^ (places + 1 + digits.length) := (pow_add ..).symm
      _ ≤ 10 ^ 17 := Nat.pow_le_pow_right (by decide) (by omega)
      _ ≤ greatestSignificand := by decide
  have first : digits ++ List.replicate places '0' ≠ [] := List.append_ne_nil_of_left_ne_nil given _
  have noZero : (digits ++ List.replicate places '0').head? ≠ some '0' := by
    rwa [List.head?_append_of_ne_nil _ given]
  have read := readUnsigned?_of_parts negative first zeros (.inl noZero) (.cons (by decide) _)
    (@readFraction?_digits ['0'] [] (by decide) (isDigit_zeros 1) .nil)
    (show _ = some (none, []) from rfl)
  rw [ofLiteral_decimal rfl fits] at read
  refine ⟨_, _, read, ?_, fits, .inl (by simp)⟩
  rw [Option.getD_some, number]
  exact Nat.mul_pos (Nat.pow_pos (by decide)) positive

/-- Digits around a point are read back. -/
theorem readsDigits_between (fits : Decimal.toNat digits ≤ greatestSignificand) {point : Nat}
    (some : 0 < point) (inside : point < digits.length)
    : ReadsDigits negative digits (point - digits.length)
        (digits.take point ++ '.' :: digits.drop point) := by
  have parts := List.take_append_drop point digits
  have first : digits.take point ≠ [] := by
    refine List.ne_nil_of_length_pos ?_
    rw [List.length_take]
    omega
  have noZero : (digits.take point).head? ≠ Option.some '0' := by
    rwa [List.head?_take, if_neg some.ne']
  have last : digits.drop point ≠ [] := by
    refine List.ne_nil_of_length_pos ?_
    rw [List.length_drop]
    omega
  have atFraction := readFraction?_digits last (fun _ found => run _ (List.mem_of_mem_drop found))
    .nil
  rw [List.append_nil] at atFraction
  have read := readUnsigned?_of_parts negative first
    (fun _ found => run _ (List.mem_of_mem_take found)) (.inl noZero) (.cons (by decide) _)
    atFraction (show _ = Option.some (none, []) from rfl)
  rw [ofLiteral_decimal rfl (by rwa [Option.getD_some, parts]), Option.getD_some, parts] at read
  refine ⟨_, _, read, positive, fits, .inr ⟨rfl, ?_⟩⟩
  rw [List.length_drop, Option.getD_none]
  omega

/-- Digits after zeros of a fraction are read back. -/
theorem readsDigits_fraction (fits : Decimal.toNat digits ≤ greatestSignificand) (zeros : Nat)
    : ReadsDigits negative digits (-zeros - digits.length)
        ('0' :: '.' :: (List.replicate zeros '0' ++ digits)) := by
  have given : List.replicate zeros '0' ++ digits ≠ [] := by
    refine List.append_ne_nil_of_right_ne_nil _ ?_
    rintro rfl
    exact absurd positive (by decide)
  have digit : ∀ char ∈ List.replicate zeros '0' ++ digits, char.isDigit = true :=
    List.forall_mem_append.mpr ⟨isDigit_zeros zeros, run⟩
  have number : Decimal.toNat (['0'] ++ (List.replicate zeros '0' ++ digits))
      = Decimal.toNat digits := by
    rw [← List.append_assoc]
    exact toNat_zeros_append (zeros + 1) digits
  have atFraction := readFraction?_digits given digit .nil
  rw [List.append_nil] at atFraction
  have read := readUnsigned?_of_parts negative (List.cons_ne_nil '0' []) (isDigit_zeros 1)
    (.inr rfl) (.cons (by decide) _) atFraction (show _ = some (none, []) from rfl)
  rw [ofLiteral_decimal rfl (by rwa [Option.getD_some, number]), Option.getD_some, number] at read
  refine ⟨_, _, read, positive, fits, .inr ⟨rfl, ?_⟩⟩
  rw [List.length_append, List.length_replicate, Option.getD_none]
  omega

/-- Digits with a power after them are read back, whether one of them stands alone or not. -/
theorem readsDigits_power (fits : Decimal.toNat digits ≤ greatestSignificand) (power : Int)
    : ReadsDigits negative digits (power - (digits.length - 1 : Nat))
        (digits.take 1 ++ (if (digits.drop 1).isEmpty then [] else '.' :: digits.drop 1)
          ++ 'e' :: ((if power < 0 then ['-'] else []) ++ Decimal.ofNat power.natAbs)) := by
  obtain ⟨head, fraction, rfl⟩ : ∃ head fraction, digits = head :: fraction := by
    refine List.exists_cons_of_ne_nil ?_
    rintro rfl
    exact absurd positive (by decide)
  obtain ⟨digit, others⟩ := List.forall_mem_cons.mp run
  have first : ∀ char ∈ [head], char.isDigit = true := List.forall_mem_singleton.mpr digit
  have atPower := readExponent?_written power
  have alone : ([head].head? ≠ some '0' ∨ [head].length = 1) := .inr rfl
  have ends : EndsDigits
      ('e' :: ((if power < 0 then ['-'] else []) ++ Decimal.ofNat power.natAbs)) :=
    .cons (by decide) _
  cases fraction with
  | nil =>
      have read := readUnsigned?_of_parts negative (List.cons_ne_nil head []) first alone ends
        (show _ = some (none, _) from rfl) atPower
      rw [ofLiteral_decimal rfl fits] at read
      exact ⟨_, _, read, positive, fits, .inr ⟨rfl, by simp⟩⟩
  | cons next rest =>
      have atFraction := readFraction?_digits (List.cons_ne_nil next rest) others ends
      have read := readUnsigned?_of_parts negative (List.cons_ne_nil head []) first alone
        (.cons (by decide) _) atFraction atPower
      rw [ofLiteral_decimal rfl fits] at read
      exact ⟨_, _, read, positive, fits, .inr ⟨rfl, by simp⟩⟩

/-- Digits are read back however they are laid out. -/
theorem readsDigits_layout (short : Decimal.toNat digits ≤ 10 ^ 17) (exponent : Int)
    : ReadsDigits negative digits exponent (Decimal.layout digits exponent) := by
  have fits : Decimal.toNat digits ≤ greatestSignificand := short.trans (by decide)
  have given : 0 < digits.length := by
    refine List.length_pos_of_ne_nil ?_
    rintro rfl
    exact absurd positive (by decide)
  simp only [Decimal.layout]
  split
  · next whole =>
      exact readsDigits_whole negative run leading positive exponent (by omega)
  split
  · next outside inside =>
      have same : ((digits.length + exponent).toNat : Int) - digits.length = exponent := by omega
      have read := readsDigits_between negative run leading positive fits
        (show 0 < (digits.length + exponent).toNat by omega) (by omega)
      rwa [same] at read
  split
  · next fraction =>
      have same : -(((-(digits.length + exponent)).toNat : Nat) : Int) - digits.length
          = exponent := by
        omega
      have read := readsDigits_fraction negative run leading positive fits
        (-(digits.length + exponent)).toNat
      rwa [same] at read
  · have same : (digits.length + exponent - 1) - ((digits.length - 1 : Nat) : Int) = exponent := by
      omega
    have read := readsDigits_power negative run leading positive fits (digits.length + exponent - 1)
    rwa [same] at read

end

-----------------------------------------------------------------------------------------
-- Doubles
-----------------------------------------------------------------------------------------

/-- The digits of a double that its text lays out, and their exponent. -/
def scaledDigits (mantissa : Nat) (exponent : Int) : List Char × Int :=
  (Decimal.shortest ⟨mantissa, exponent⟩).trimmed

/-- The digits of a double are seventeen at most, and they stand for its shortest decimal. -/
theorem scaledDigits_spec {mantissa : Nat} (positive : 0 < mantissa) (exponent : Int)
    : (∀ char ∈ (scaledDigits mantissa exponent).1, char.isDigit = true)
      ∧ (scaledDigits mantissa exponent).1.head? ≠ some '0'
      ∧ 0 < Decimal.toNat (scaledDigits mantissa exponent).1
      ∧ Decimal.toNat (scaledDigits mantissa exponent).1 ≤ 10 ^ 17
      ∧ (Decimal.toNat (scaledDigits mantissa exponent).1 : ℚ)
          * 10 ^ (scaledDigits mantissa exponent).2
        = (Decimal.shortest ⟨mantissa, exponent⟩).value := by
  obtain ⟨digitsPositive, few, _⟩ :=
    @Decimal.shortest_bounds ⟨mantissa, exponent⟩ positive
  obtain ⟨digits, places, trimmed, _, run, leading, number⟩ := Decimal.trimmed_spec digitsPositive
  rw [scaledDigits, trimmed]
  refine ⟨run, leading, Nat.pos_of_mul_pos_right (number ▸ digitsPositive), ?_, ?_⟩
  · exact (Nat.le_mul_of_pos_right _ (pow_ten_pos places)).trans (number.trans_le few)
  · rw [Decimal.Scaled.value, ← number, zpow_add₀ (by norm_num), zpow_natCast]
    push_cast
    ring

/-- A number of digits is scaled up by its exponent to a finite double. -/
def ScalesUp (digits : List Char) (exponent : Int) : Prop :=
  exponent.toNat ≤ mostPlaces
    ∧ ((Decimal.toNat digits).toUInt64.toFloat * powerOfTen exponent.toNat).isFinite = true

instance (digits : List Char) (exponent : Int) : Decidable (ScalesUp digits exponent) :=
  inferInstanceAs (Decidable (_ ∧ _))

/-- The two greatest doubles are scaled up to finite ones, by evaluation. -/
theorem scalesUp_greatest
    : ∀ back : Fin 2,
        ScalesUp (scaledDigits (9007199254740991 - back) 971).1
          (scaledDigits (9007199254740991 - back) 971).2 := by
  decide +kernel

/-- Half a unit in the last place of the greatest doubles is less than a unit of the last grid. -/
theorem half_le_unit : (2 : ℚ) ^ (970 : Int) ≤ 10 ^ (292 : Int) := by
  have cast {places others : Nat} (le : 2 ^ places ≤ 10 ^ others)
      : (2 : ℚ) ^ (places : Int) ≤ 10 ^ (others : Int) := by
    rw [zpow_natCast, zpow_natCast]
    exact_mod_cast le
  exact @cast 970 292 (by decide +kernel)

/-- The shortest decimal of any double but the two greatest is not too high. -/
theorem shortest_le_highest {mantissa : Nat} {exponent : Int} (positive : 0 < mantissa)
    (within : exponent ≤ 971)
    (low : (mantissa : ℚ) * 2 ^ exponent ≤ (2 ^ 53 - 3 : Nat) * 2 ^ (971 : Int))
    : (Decimal.shortest ⟨mantissa, exponent⟩).value ≤ highest := by
  obtain ⟨_, _, near⟩ := @Decimal.shortest_bounds ⟨mantissa, exponent⟩ positive
  obtain ⟨first, _⟩ := @Decimal.Binary.value_bounds ⟨mantissa, exponent⟩ positive
  have ten : (1 : ℚ) < 10 := by norm_num
  have two : (1 : ℚ) ≤ 2 := by norm_num
  have magnitude : Decimal.Binary.magnitude ⟨mantissa, exponent⟩ ≤ 309 := by
    have top : (highest : ℚ) < 10 ^ (309 : Int) := by
      rw [show (309 : Int) = ((mostPlaces + 1 : Nat) : Int) by rfl, zpow_natCast]
      exact_mod_cast highest_lt
    have unit : (0 : ℚ) < 10 ^ (292 : Int) := by positivity
    have below : (10 : ℚ) ^ (Decimal.Binary.magnitude ⟨mantissa, exponent⟩ - 1)
        < 10 ^ (309 : Int) :=
      calc (10 : ℚ) ^ (Decimal.Binary.magnitude ⟨mantissa, exponent⟩ - 1)
        _ ≤ mantissa * 2 ^ exponent := first
        _ ≤ (2 ^ 53 - 3 : Nat) * 2 ^ (971 : Int) := low
        _ < (2 ^ 53 - 3 : Nat) * 2 ^ (971 : Int) + 10 ^ (292 : Int) := lt_add_of_pos_right _ unit
        _ = highest := cast_highest.symm
        _ < 10 ^ (309 : Int) := top
    have := (zpow_lt_zpow_iff_right₀ ten).mp below
    omega
  have half : (2 : ℚ) ^ (exponent - 1) ≤ 10 ^ (292 : Int) :=
    (zpow_le_zpow_right₀ two (by omega)).trans half_le_unit
  have grid : (10 : ℚ) ^ (Decimal.Binary.magnitude ⟨mantissa, exponent⟩ - 17) ≤ 10 ^ (292 : Int) :=
    zpow_le_zpow_right₀ ten.le (by omega)
  calc (Decimal.shortest ⟨mantissa, exponent⟩).value
    _ ≤ mantissa * 2 ^ exponent + max (2 ^ (exponent - 1))
        (10 ^ (Decimal.Binary.magnitude ⟨mantissa, exponent⟩ - 17)) := near
    _ ≤ (2 ^ 53 - 3 : Nat) * 2 ^ (971 : Int) + 10 ^ (292 : Int) :=
        add_le_add low (max_le half grid)
    _ = highest := cast_highest.symm

/-- All doubles but the two greatest are at most the third, by their exponents or mantissas. -/
theorem value_le_third {mantissa : Nat} {exponent : Int} (short : mantissa < 2 ^ 53)
    (within : exponent ≤ 971) (other : ¬(exponent = 971 ∧ 2 ^ 53 - 3 < mantissa))
    : (mantissa : ℚ) * 2 ^ exponent ≤ (2 ^ 53 - 3 : Nat) * 2 ^ (971 : Int) := by
  rcases within.eq_or_lt with rfl | less
  · have few : (mantissa : ℚ) ≤ (2 ^ 53 - 3 : Nat) := by
      norm_cast
      omega
    gcongr
  · have few : (mantissa : ℚ) ≤ (2 ^ 53 - 3 : Nat) * 2 := by
      norm_cast
      omega
    have half : (2 : ℚ) ^ exponent ≤ 2 ^ (970 : Int) :=
      zpow_le_zpow_right₀ (by norm_num) (by omega)
    have double : (2 : ℚ) ^ (971 : Int) = 2 * 2 ^ (970 : Int) := by
      rw [show (971 : Int) = 1 + 970 by rfl, zpow_add₀ (by norm_num), zpow_one]
    calc (mantissa : ℚ) * 2 ^ exponent
      _ ≤ (2 ^ 53 - 3 : Nat) * 2 * 2 ^ (970 : Int) := by gcongr
      _ = (2 ^ 53 - 3 : Nat) * 2 ^ (971 : Int) := by rw [double, mul_assoc]

/-- The digits of a double are scaled up to a finite one if they have to be scaled up. The greatest
two are apart, since their digits are too high for the bound on all others.
-/
theorem scalesUp {mantissa : Nat} {exponent : Int} (positive : 0 < mantissa)
    (short : mantissa < 2 ^ 53) (within : exponent ≤ 971)
    (nonneg : 0 ≤ (scaledDigits mantissa exponent).2)
    : ScalesUp (scaledDigits mantissa exponent).1 (scaledDigits mantissa exponent).2 := by
  by_cases great : exponent = 971 ∧ 2 ^ 53 - 3 < mantissa
  · obtain ⟨rfl, great⟩ := great
    have back : 9007199254740991 - (9007199254740991 - mantissa) = mantissa := by omega
    have checked := scalesUp_greatest ⟨9007199254740991 - mantissa, by omega⟩
    dsimp only at checked
    rwa [back] at checked
  · obtain ⟨_, _, some, few, value⟩ := scaledDigits_spec positive exponent
    have high := shortest_le_highest positive within (value_le_third short within great)
    obtain ⟨power, same⟩ := Int.eq_ofNat_of_zero_le nonneg
    rw [← value, same, zpow_natCast] at high
    rw [ScalesUp, same, Int.toNat_natCast]
    exact isFinite_scaleUp some few (by exact_mod_cast high)

/-- The digits of a double as they are laid out are read as a literal of a finite double. -/
theorem exists_readUnsigned?_layout (negative : Bool) {mantissa : Nat} {exponent : Int}
    (positive : 0 < mantissa) (short : mantissa < 2 ^ 53) (within : exponent ≤ 971)
    : ∃ read, read.isFinite = true
      ∧ readUnsigned? negative
          (Decimal.layout (scaledDigits mantissa exponent).1 (scaledDigits mantissa exponent).2)
        = some (.float read, []) := by
  obtain ⟨run, leading, some, few, _⟩ := scaledDigits_spec positive exponent
  obtain ⟨significand, power, atText, significandPositive, fits, scaled⟩ :=
    readsDigits_layout negative run leading some few (scaledDigits mantissa exponent).2
  have up : 0 ≤ power → power.toNat ≤ mostPlaces
      ∧ (significand.toUInt64.toFloat * powerOfTen power.toNat).isFinite = true := by
    intro nonneg
    rcases scaled with below | ⟨rfl, rfl⟩
    · omega
    · exact scalesUp positive short within nonneg
  obtain ⟨read, denoted, finite⟩ := exists_ofDecimalLiteral negative significandPositive
    (Nat.lt_succ_of_le fits) up
  exact ⟨read, finite, by rw [atText, denoted]⟩

/-- A text without a sign is read as a number of its own, since no digits stand before a sign. -/
theorem readNumber?_of_readUnsigned? {text : List Char} {outcome : Json × List Char}
    (read : readUnsigned? false text = some outcome)
    : readNumber? text = some outcome := by
  cases text with
  | nil => exact read
  | cons head rest =>
      by_cases minus : head = '-'
      · subst minus
        simp [readUnsigned?, Decimal.spanDigits] at read
      · simpa [readNumber?, minus] using read

/-- The text of a finite double is read as a finite double, by cases on its parts. -/
theorem exists_read {value : Float} (finite : value.isFinite = true)
    : ∃ text read, Decimal.ofFloat? value = some text
      ∧ readNumber? text = some (.float read, [])
      ∧ read.isFinite = true := by
  change value.toModel.unpack.isFinite = true at finite
  unfold Decimal.ofFloat?
  cases parts : value.toModel.unpack with
  | infinity sign => simp [parts, Float.Model.UnpackedFloat.isFinite] at finite
  | notANumber => simp [parts, Float.Model.UnpackedFloat.isFinite] at finite
  | zero sign =>
      cases sign
      · exact ⟨_, _, rfl, rfl, by decide +kernel⟩
      · exact ⟨_, _, rfl, rfl, by decide +kernel⟩
  | finite sign mantissa exponent positive =>
      obtain ⟨short, _, within⟩ := Rounding.bounds_of_unpack parts
      cases sign with
      | positive =>
          obtain ⟨read, finite, atText⟩ := exists_readUnsigned?_layout false positive short within
          exact ⟨_, read, rfl, readNumber?_of_readUnsigned? atText, finite⟩
      | negative =>
          obtain ⟨read, finite, atText⟩ := exists_readUnsigned?_layout true positive short within
          exact ⟨_, read, rfl, atText, finite⟩

/-- The double that the text of a double is read as. One that is not finite has no text. -/
def floatAsRead (value : Float) : Float :=
  match (Decimal.ofFloat? value).bind readNumber? with
  | some (.float read, _) => read
  | _ => value

theorem exists_floatAsRead {value : Float} (finite : value.isFinite = true)
    : ∃ text, Decimal.ofFloat? value = some text
      ∧ readNumber? text = some (.float (floatAsRead value), [])
      ∧ (floatAsRead value).isFinite = true := by
  obtain ⟨text, read, written, atText, finite⟩ := exists_read finite
  have same : floatAsRead value = read := by
    rw [floatAsRead, written, Option.bind_some, atText]
  exact ⟨text, written, same ▸ atText, same ▸ finite⟩

/-- Only a finite double has a text. -/
theorem isFinite_of_ofFloat? {value : Float} {text : List Char}
    (written : Decimal.ofFloat? value = some text)
    : value.isFinite = true := by
  change value.toModel.unpack.isFinite = true
  unfold Decimal.ofFloat? at written
  cases parts : value.toModel.unpack <;> simp_all [Float.Model.UnpackedFloat.isFinite]

end SharedBoard.Json
