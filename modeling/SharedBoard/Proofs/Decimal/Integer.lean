import SharedBoard.Decimal.Integer

/-! Which texts are read as whole numbers, and as which: those that write a number between the
bounds, and no others. What a text writes is said apart from the reader, whose running value and
limit on every digit never show.
-/

namespace SharedBoard.Decimal

/-- A run of one or more digits for a number; zeros in front change nothing. -/
def Denotes (digits : List Char) (number : Nat) : Prop :=
  digits ≠ [] ∧ (∀ digit ∈ digits, digit.isDigit = true) ∧ toNat digits = number

/-- A text for a natural number: its digits, after a plus sign or alone. -/
def WritesNat (text : List Char) (number : Nat) : Prop :=
  Denotes text number ∨ ∃ digits, text = '+' :: digits ∧ Denotes digits number

/-- A text for an integer: one for a natural number, or a minus sign and digits. -/
def WritesInt (text : List Char) (number : Int) : Prop :=
  (∃ magnitude : Nat, WritesNat text magnitude ∧ (magnitude : Int) = number)
  ∨ ∃ digits magnitude,
      text = '-' :: digits ∧ Denotes digits magnitude ∧ -(magnitude : Int) = number

/-- A sign is no digit, so a run of digits begins with none. -/
theorem Denotes.head {char : Char} {digits : List Char} {number : Nat}
    (denotes : Denotes (char :: digits) number)
    : char.isDigit = true :=
  denotes.2.1 char (by simp)

/-- More digits never make a smaller number, by induction on the digits. -/
theorem le_ofDigitChars (digits : List Char) (value : Nat)
    : value ≤ Nat.ofDigitChars 10 digits value := by
  induction digits generalizing value with
  | nil => exact Nat.le_refl value
  | cons digit digits ih =>
      rw [Nat.ofDigitChars_cons]
      have later := ih (10 * value + (digit.toNat - '0'.toNat))
      omega

-----------------------------------------------------------------------------------------
-- Readers
-----------------------------------------------------------------------------------------

/-- Digits are read on from a value within the limit if the number that they make is within it.
By induction on the digits: since the values on the way only grow, the limit on each of them is
the limit on the last.
-/
theorem readMagnitude_eq_ok_iff {limit value : Nat} (beyond : IntegerError)
    (within : value ≤ limit) (digits : List Char) (number : Nat)
    : readMagnitude limit beyond value digits = .ok number
      ↔ (∀ digit ∈ digits, digit.isDigit = true)
        ∧ Nat.ofDigitChars 10 digits value = number ∧ number ≤ limit := by
  induction digits generalizing value with
  | nil =>
      simp only [readMagnitude, Except.ok.injEq, List.not_mem_nil, false_implies, implies_true,
        Nat.ofDigitChars_nil, true_and]
      constructor
      · rintro rfl
        exact ⟨rfl, within⟩
      · exact And.left
  | cons digit digits ih =>
      simp only [readMagnitude, List.forall_mem_cons, Nat.ofDigitChars_cons]
      by_cases isDigit : digit.isDigit = true
      · by_cases small : 10 * value + (digit.toNat - '0'.toNat) ≤ limit
        · rw [if_pos isDigit, if_pos small, ih small]
          simp only [isDigit, true_and]
        · have grown := le_ofDigitChars digits (10 * value + (digit.toNat - '0'.toNat))
          rw [if_pos isDigit, if_neg small]
          constructor
          · exact fun refused => nomatch refused
          · rintro ⟨_, rfl, fits⟩
            exact absurd (Nat.le_trans grown fits) small
      · simp [isDigit]

/-- The digits after a sign are read if there are any. -/
theorem readSigned_eq_ok_iff (limit : Nat) (beyond : IntegerError) (digits : List Char)
    (number : Nat)
    : readSigned limit beyond digits = .ok number ↔ Denotes digits number ∧ number ≤ limit := by
  cases digits with
  | nil => simp [readSigned, Denotes]
  | cons digit digits =>
      have read := readMagnitude_eq_ok_iff beyond (Nat.zero_le limit) (digit :: digits) number
      rw [readSigned, if_neg (by simp), read, Denotes, toNat]
      simp [and_assoc]

/-- A natural number is read from the texts that write it, if it is within its bound. -/
theorem readNat_eq_ok_iff (greatest : Nat) (text : List Char) (number : Nat)
    : readNat greatest text = .ok number ↔ WritesNat text number ∧ number ≤ greatest := by
  cases text with
  | nil => simp [readNat, WritesNat, Denotes]
  | cons char rest =>
      by_cases signed : char = '+'
      · subst signed
        have unsigned : ¬ Denotes ('+' :: rest) number := fun denotes =>
          absurd denotes.head (by decide)
        simp [readNat, readSigned_eq_ok_iff, WritesNat, unsigned]
      · have read := readSigned_eq_ok_iff greatest .tooLarge (char :: rest) number
        rw [readSigned, if_neg (by simp)] at read
        simp [readNat, signed, read, WritesNat]

/-- An integer is read from the texts that write it, if it is between its bounds. -/
theorem readInt_eq_ok_iff (least greatest : Nat) (text : List Char) (number : Int)
    : readInt least greatest text = .ok number
      ↔ WritesInt text number ∧ -(least : Int) ≤ number ∧ number ≤ greatest := by
  by_cases negative : ∃ digits, text = '-' :: digits
  · obtain ⟨digits, rfl⟩ := negative
    have natural (magnitude : Nat) : ¬ WritesNat ('-' :: digits) magnitude := by
      rintro (denotes | ⟨_, plus, _⟩)
      · exact absurd denotes.head (by decide)
      · exact absurd (List.cons.inj plus).1 (by decide)
    have read : readInt least greatest ('-' :: digits) = .ok number
        ↔ ∃ magnitude, readSigned least .tooSmall digits = .ok magnitude
          ∧ -(magnitude : Int) = number := by
      simp only [readInt]
      cases readSigned least .tooSmall digits <;> simp [Except.map, Functor.map]
    simp only [read, readSigned_eq_ok_iff, WritesInt, natural, false_and, exists_false, false_or,
      List.cons.injEq, true_and]
    constructor
    · rintro ⟨magnitude, ⟨denotes, within⟩, rfl⟩
      exact ⟨⟨digits, magnitude, rfl, denotes, rfl⟩, by omega, by omega⟩
    · rintro ⟨⟨_, magnitude, rfl, denotes, rfl⟩, above, _⟩
      exact ⟨magnitude, ⟨denotes, by omega⟩, rfl⟩
  · have read : readInt least greatest text = .ok number
        ↔ ∃ magnitude, readNat greatest text = .ok magnitude ∧ (magnitude : Int) = number := by
      rw [readInt]
      · cases readNat greatest text <;> simp [Except.map]
      · exact fun digits minus => negative ⟨digits, minus⟩
    have positive (digits : List Char) (magnitude : Nat)
        : ¬ (text = '-' :: digits ∧ Denotes digits magnitude ∧ -(magnitude : Int) = number) :=
      fun minus => negative ⟨digits, minus.1⟩
    simp only [read, readNat_eq_ok_iff, WritesInt, positive, exists_false, or_false]
    constructor
    · rintro ⟨magnitude, ⟨writes, within⟩, rfl⟩
      exact ⟨⟨magnitude, writes, rfl⟩, by omega, by omega⟩
    · rintro ⟨⟨magnitude, writes, rfl⟩, _, below⟩
      exact ⟨magnitude, ⟨writes, by omega⟩, rfl⟩

end SharedBoard.Decimal
