/-! Natural numbers as runs of decimal digits. -/

namespace SharedBoard.Decimal

/-- The digits of a number, without leading zeros. -/
def ofNat (number : Nat) : List Char :=
  Nat.toDigits 10 number

/-- The digits of a number with zeros in front up to the given width. -/
def padded (width number : Nat) : List Char :=
  List.replicate (width - (ofNat number).length) '0' ++ ofNat number

/-- The number that a run of digits denotes. -/
def toNat (digits : List Char) : Nat :=
  Nat.ofDigitChars 10 digits 0

/-- The longest run of digits at the start of a text, and the rest. -/
def spanDigits (text : List Char) : List Char × List Char :=
  (text.takeWhile Char.isDigit, text.dropWhile Char.isDigit)

/-- Read between one and (most) digits at the start of a text. -/
def read? (most : Nat) (text : List Char) : Option (Nat × List Char) :=
  let digits := (text.takeWhile Char.isDigit).take most
  if digits.isEmpty then none else some (toNat digits, text.drop digits.length)

/-- The digits of a number denote it. -/
@[simp] theorem toNat_ofNat (number : Nat)
    : toNat (ofNat number) = number :=
  Nat.ofDigitChars_toDigits (by decide) (by decide)

/-- Zeros in front change nothing, since they denote zero. -/
@[simp] theorem toNat_padded (width number : Nat)
    : toNat (padded width number) = number := by
  simp [toNat, padded, ofNat, Nat.ofDigitChars_append, Nat.ofDigitChars_replicate_zero,
    Nat.ofDigitChars_toDigits]

/-- Every character written for a number is a digit. -/
theorem isDigit_of_mem_ofNat {number : Nat} {char : Char} (member : char ∈ ofNat number)
    : char.isDigit :=
  Nat.isDigit_of_mem_toDigits (by decide) (by decide) member

theorem ofNat_ne_nil (number : Nat)
    : ofNat number ≠ [] :=
  Nat.toDigits_ne_nil

end SharedBoard.Decimal
