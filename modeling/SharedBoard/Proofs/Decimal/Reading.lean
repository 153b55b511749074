import Mathlib.Algebra.Group.Nat.Defs
import SharedBoard.Decimal.Digits

/-! Runs of digits are read back wherever they stand in a text, provided that no digit follows them.
-/

namespace SharedBoard.Decimal

/-- A text before which a run of digits ends. -/
def EndsDigits (text : List Char) : Prop :=
  ∀ char ∈ text.head?, char.isDigit = false

theorem EndsDigits.nil : EndsDigits [] := by
  intro char first
  simp at first

theorem EndsDigits.cons {char : Char} (other : char.isDigit = false) (text : List Char)
    : EndsDigits (char :: text) := by
  intro first same
  obtain rfl : char = first := by simpa using same
  exact other

/-- Nothing is taken from a text that ends a run. -/
theorem EndsDigits.span {text : List Char} (ends : EndsDigits text)
    : spanDigits text = ([], text) := by
  cases text with
  | nil => rfl
  | cons char rest =>
      have other := ends char (by simp)
      simp [spanDigits, other]

/-- A run of digits is taken as a whole from the text that it begins. -/
theorem spanDigits_append {digits rest : List Char} (run : ∀ char ∈ digits, char.isDigit = true)
    (ends : EndsDigits rest)
    : spanDigits (digits ++ rest) = (digits, rest) := by
  obtain ⟨none, all⟩ := Prod.mk.inj ends.span
  rw [spanDigits, List.takeWhile_append_of_pos run, List.dropWhile_append_of_pos run, none, all,
    List.append_nil]

/-- A run of digits within the limit is read as the number that it denotes. -/
theorem read?_append {most : Nat} {digits rest : List Char} (nonempty : digits ≠ [])
    (run : ∀ char ∈ digits, char.isDigit = true) (short : digits.length ≤ most)
    (ends : EndsDigits rest)
    : read? most (digits ++ rest) = some (toNat digits, rest) := by
  have taken : (digits ++ rest).takeWhile Char.isDigit = digits :=
    (Prod.mk.inj (spanDigits_append run ends)).1
  simp [read?, taken, List.take_of_length_le short, nonempty]

/-- A written number begins with a digit. -/
theorem exists_ofNat (number : Nat)
    : ∃ head rest, ofNat number = head :: rest ∧ head.isDigit = true := by
  obtain ⟨head, rest, same⟩ := List.exists_cons_of_ne_nil (ofNat_ne_nil number)
  refine ⟨head, rest, same, @isDigit_of_mem_ofNat number head ?_⟩
  rw [same]
  exact List.mem_cons_self

/-- A digit is none of the other characters. -/
theorem ne_of_isDigit {char other : Char} (digit : char.isDigit = true)
    (noDigit : other.isDigit = false)
    : char ≠ other := by
  rintro rfl
  rw [noDigit] at digit
  exact absurd digit (by decide)

/-- A written number has no zero in front of other digits, by induction on the digits. -/
theorem eq_zero_of_head?_ofNat {number : Nat} (leading : (ofNat number).head? = some '0')
    : number = 0 := by
  induction number using Nat.strongRecOn with
  | ind number ih =>
      by_cases small : number < 10
      · have checked : ∀ digit : Fin 10, Nat.digitChar digit.val = '0' → digit.val = 0 := by decide
        rw [ofNat, Nat.toDigits_of_lt_base small] at leading
        exact checked ⟨number, small⟩ (Option.some.inj leading)
      · have first : (ofNat (number / 10)).head? = some '0' := by
          rw [ofNat, Nat.toDigits_of_base_le (by decide) (by omega)] at leading
          obtain ⟨head, rest, digits⟩ :=
            List.exists_cons_of_ne_nil (ofNat_ne_nil (number / 10))
          rw [show Nat.toDigits 10 (number / 10) = head :: rest from digits] at leading
          rw [digits]
          exact leading
        have := ih (number / 10) (by omega) first
        omega

/-- Every character of a padded number is a digit. -/
theorem isDigit_of_mem_padded {width number : Nat} {char : Char}
    (member : char ∈ padded width number)
    : char.isDigit = true := by
  rcases List.mem_append.mp member with zero | digit
  · rw [(List.mem_replicate.mp zero).2]
    rfl
  · exact isDigit_of_mem_ofNat digit

theorem padded_ne_nil (width number : Nat) : padded width number ≠ [] := by
  simp [padded, ofNat_ne_nil]

/-- A number that fits the width is padded to that width. -/
theorem length_padded {width number : Nat} (positive : 0 < width) (fits : number < 10 ^ width)
    : (padded width number).length = width := by
  have short : (ofNat number).length ≤ width :=
    (Nat.length_toDigits_le_iff (by decide) positive).mpr fits
  simp [padded]
  omega

/-- A padded number that fits its width is read back. -/
theorem read?_padded {most width number : Nat} {rest : List Char} (positive : 0 < width)
    (fits : number < 10 ^ width) (within : width ≤ most) (ends : EndsDigits rest)
    : read? most (padded width number ++ rest) = some (number, rest) := by
  have short : (padded width number).length ≤ most := by
    rw [length_padded positive fits]
    exact within
  rw [read?_append (padded_ne_nil _ _) (fun _ => isDigit_of_mem_padded) short ends, toNat_padded]

end SharedBoard.Decimal
