import SharedBoard.Decimal.Digits

/-! The shortest decimal that rounds to a given double. A double is m * 2 ^ q; the reals that
round to it form an interval around it, and the first decimal grid with a point in that interval
gives the digits.
-/

namespace SharedBoard.Decimal

/-- A positive decimal: an integer of digits times a power of ten. -/
structure Scaled where
  digits : Nat
  exponent : Int
deriving DecidableEq

/-- A positive binary number: an integer times a power of two. -/
structure Binary where
  mantissa : Nat
  exponent : Int
deriving DecidableEq

/-- Whether digits * 10 ^ p is at most, or with (strict) less than, m * 2 ^ q, with both sides
brought to integers.
-/
def below (decimal : Scaled) (binary : Binary) (strict : Bool) : Bool :=
  let left :=
    decimal.digits * Nat.pow 10 decimal.exponent.toNat * Nat.pow 2 (-binary.exponent).toNat
  let right :=
    binary.mantissa * Nat.pow 2 binary.exponent.toNat * Nat.pow 10 (-decimal.exponent).toNat
  if strict then left < right else left ≤ right

/-- Whether m * 2 ^ q is at most, or with (strict) less than, digits * 10 ^ p. -/
def above (decimal : Scaled) (binary : Binary) (strict : Bool) : Bool :=
  !below decimal binary !strict

/-- The smallest exponent of a double. -/
def leastExponent : Int :=
  -1074

/-- Whether a decimal lies in the interval of reals that round to a double, which holds its ends
exactly when the mantissa is even. The lower half of the interval is shorter at a power of two.
-/
def roundsTo (value : Binary) (decimal : Scaled) : Bool :=
  let quarter := value.exponent - 2
  let open_ := value.mantissa % 2 == 1
  let narrow := value.mantissa == 4503599627370496 && leastExponent < value.exponent
  let low : Binary := ⟨4 * value.mantissa - (if narrow then 1 else 2), quarter⟩
  let high : Binary := ⟨4 * value.mantissa + 2, quarter⟩
  above decimal low open_ && below decimal high open_

/-- The numerator and the denominator of a binary number. -/
def Binary.fraction (value : Binary) : Nat × Nat :=
  (value.mantissa * Nat.pow 2 value.exponent.toNat, Nat.pow 2 (-value.exponent).toNat)

/-- The position of the first digit of a positive number: the least k with value < 10 ^ k. -/
def Binary.magnitude (value : Binary) : Int :=
  let (numerator, denominator) := value.fraction
  if denominator ≤ numerator then
    (ofNat (numerator / denominator)).length
  else
    1 - (ofNat ((denominator - 1) / numerator)).length

/-- The two neighbours of a value on the grid of multiples of 10 ^ p, the nearer one first; the
even one first if both are equally near.
-/
def neighbours (value : Binary) (exponent : Int) : List Scaled :=
  let (numerator, denominator) := value.fraction
  let numerator := numerator * Nat.pow 10 (-exponent).toNat
  let denominator := denominator * Nat.pow 10 exponent.toNat
  let floor := numerator / denominator
  let rest := 2 * (numerator % denominator)
  let lower : Scaled := ⟨floor, exponent⟩
  let upper : Scaled := ⟨floor + 1, exponent⟩
  if rest < denominator || (rest == denominator && floor % 2 == 0) then
    [lower, upper]
  else
    [upper, lower]

/-- The neighbour on the first grid that has one in the interval, trying grids of growing
precision; seventeen digits always suffice, so the last grid needs no test.
-/
def shortestFrom (value : Binary) (magnitude : Int) : (grids : Nat) → Scaled
  | 0 => (neighbours value (magnitude - 17)).headD ⟨value.mantissa, 0⟩
  | grids + 1 =>
      let exponent := magnitude - (16 - (grids : Int))
      match (neighbours value exponent).find? (roundsTo value) with
      | some decimal => decimal
      | none => shortestFrom value magnitude grids

/-- The shortest decimal that rounds to a positive double. -/
def shortest (value : Binary) : Scaled :=
  shortestFrom value value.magnitude 16

/-- Digits without trailing zeros, and the exponent that makes up for them. -/
def Scaled.trimmed (decimal : Scaled) : List Char × Int :=
  let digits := ofNat decimal.digits
  let kept := (digits.reverse.dropWhile (· == '0')).reverse
  (kept, decimal.exponent + (digits.length - kept.length : Nat))

/-- Lay digits out around a decimal point. The point stands among the digits, or at most four
zeros before them, or after at most sixteen places; elsewhere an exponent follows the digits.
-/
def layout (digits : List Char) (exponent : Int) : List Char :=
  let point := digits.length + exponent
  if 0 ≤ exponent ∧ point ≤ 16 then
    digits ++ List.replicate exponent.toNat '0' ++ ['.', '0']
  else if 0 < point ∧ point ≤ 16 then
    digits.take point.toNat ++ '.' :: digits.drop point.toNat
  else if -5 < point ∧ point ≤ 0 then
    '0' :: '.' :: (List.replicate (-point).toNat '0' ++ digits)
  else
    let fraction := digits.drop 1
    let power := (if point - 1 < 0 then ['-'] else []) ++ ofNat (point - 1).natAbs
    digits.take 1 ++ (if fraction.isEmpty then [] else '.' :: fraction) ++ 'e' :: power

/-- The text of a double, or nothing if it is not finite. -/
def ofFloat? (value : Float) : Option (List Char) :=
  let signed (sign : Float.Model.UnpackedFloat.Sign) (text : List Char) :=
    if sign == .negative then '-' :: text else text
  match value.toModel.unpack with
  | .notANumber => none
  | .infinity _ => none
  | .zero sign => some (signed sign ['0', '.', '0'])
  | .finite sign mantissa exponent _ =>
      let (digits, power) := (shortest ⟨mantissa, exponent⟩).trimmed
      some (signed sign (layout digits power))

end SharedBoard.Decimal
