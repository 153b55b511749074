import SharedBoard.Decimal.Digits

/-! Whole numbers between bounds, as settings hold them: an optional sign and decimal digits. A
minus sign is known only where numbers can be negative.
-/

namespace SharedBoard.Decimal

/-- Why a text is no whole number between the bounds. -/
inductive IntegerError where
  | empty
  | badDigit
  | tooLarge
  | tooSmall
deriving DecidableEq, Repr

def IntegerError.message : IntegerError → String
  | .empty => "cannot parse integer from empty string"
  | .badDigit => "invalid digit found in string"
  | .tooLarge => "number too large to fit in target type"
  | .tooSmall => "number too small to fit in target type"

/-- Read the digits of a magnitude after those that were read already. The first digit that takes
it beyond its limit is an error, and so is a character that is no digit, whichever comes first.
-/
def readMagnitude (limit : Nat) (beyond : IntegerError) (value : Nat)
    : List Char → Except IntegerError Nat
  | [] => .ok value
  | char :: rest =>
      if char.isDigit then
        let next := 10 * value + (char.toNat - '0'.toNat)
        if next ≤ limit then readMagnitude limit beyond next rest else .error beyond
      else
        .error .badDigit

/-- Read the digits of a number after its sign; there has to be one. -/
def readSigned (limit : Nat) (beyond : IntegerError) (digits : List Char)
    : Except IntegerError Nat :=
  if digits.isEmpty then .error .badDigit else readMagnitude limit beyond 0 digits

/-- Read a natural number up to a bound. -/
def readNat (greatest : Nat) : List Char → Except IntegerError Nat
  | [] => .error .empty
  | '+' :: digits => readSigned greatest .tooLarge digits
  | digits => readMagnitude greatest .tooLarge 0 digits

/-- Read an integer from the negative of one bound up to another. -/
def readInt (least greatest : Nat) : List Char → Except IntegerError Int
  | '-' :: digits => (readSigned least .tooSmall digits).map (fun value => -(value : Int))
  | text => (readNat greatest text).map Int.ofNat

end SharedBoard.Decimal
