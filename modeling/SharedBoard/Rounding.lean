/-! Doubles rounded to whole numbers of 32 bits. A half goes away from zero, what is out of range
goes to the nearest bound, and what is not a number goes to zero.
-/

namespace SharedBoard

namespace Rounding

/-- The smallest value of 32 bits. -/
def least : Int :=
  -2147483648

/-- The largest value of 32 bits. -/
def greatest : Int :=
  2147483647

/-- The whole number nearest to mantissa * 2 ^ exponent, a half going up. -/
def nearest (mantissa : Nat) (exponent : Int) : Nat :=
  if 0 ≤ exponent then
    mantissa * Nat.pow 2 exponent.toNat
  else
    let unit := Nat.pow 2 (-exponent).toNat
    (2 * mantissa + unit) / (2 * unit)

/-- A double rounded to a whole number, with the bounds for the infinities. -/
def toInt (value : Float) : Int :=
  match value.toModel.unpack with
  | .notANumber => 0
  | .infinity sign => if sign == .negative then least else greatest
  | .zero _ => 0
  | .finite sign mantissa exponent _ => sign.apply (nearest mantissa exponent)

/-- A whole number brought within 32 bits. -/
def saturate (value : Int) : Int32 :=
  Int32.ofInt (max least (min greatest value))

/-- A double rounded to 32 bits. -/
def toInt32 (value : Float) : Int32 :=
  saturate (toInt value)

/-- The double with the value of 32 bits, which is exact. -/
def ofInt32 (value : Int32) : Float :=
  .ofModel (.ofInt32 value)

end Rounding

end SharedBoard
