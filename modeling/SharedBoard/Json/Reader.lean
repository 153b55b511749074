import SharedBoard.Decimal.Digits
import SharedBoard.Json
import SharedBoard.Uuid.Text

/-! Reading JSON text. The reader is strict: four blank characters, no trailing commas, no leading
zeros, no control characters in strings and nothing after the document. Literals that denote
nothing become valueless nodes, and an object with such a name is valueless as a whole.
-/

namespace SharedBoard.Json

-----------------------------------------------------------------------------------------
-- Blanks
-----------------------------------------------------------------------------------------

/-- The characters that may stand between tokens. -/
def isSpace (char : Char) : Bool :=
  char == ' ' || char == '\t' || char == '\n' || char == '\r'

/-- Drop the blanks at the start of a text. -/
def skipSpace (text : List Char) : List Char :=
  text.dropWhile isSpace

-----------------------------------------------------------------------------------------
-- Numbers
-----------------------------------------------------------------------------------------

/-- A double with the given sign and magnitude, or a valueless node beyond its range. -/
def ofMagnitude (negative : Bool) (magnitude : Float) : Json :=
  if magnitude.isInf then .valueless
  else .float (if negative then -magnitude else magnitude)

/-- The greatest significand that is kept of a number: 64 bits. -/
def greatestSignificand : Nat :=
  18446744073709551615

/-- Take digits into a significand up to the first one with which it could not be kept. That digit
and all after it are left over, however small they are.
-/
def takeDigits (significand : Nat) : List Char → Nat × List Char
  | [] => (significand, [])
  | digit :: rest =>
      let next := 10 * significand + (digit.toNat - '0'.toNat)
      if next ≤ greatestSignificand then takeDigits next rest else (significand, digit :: rest)

/-- The double nearest to a power of ten. -/
def powerOfTen (places : Nat) : Float :=
  Float.ofScientific 1 false places

/-- The greatest number of places whose power of ten is a double. -/
def mostPlaces : Nat :=
  308

/-- Move a value down by decimal places: in steps of most places while anything is left of it, and
by the rest at last.
-/
def scaleDown : (steps : Nat) → (value : Float) → (places : Nat) → Float
  | 0, value, places => value / powerOfTen places
  | steps + 1, value, places =>
      if value == 0.0 then value
      else scaleDown steps (value / powerOfTen mostPlaces) (places - mostPlaces)

/-- An integer literal of 64 bits. Negative ones that are no integers of 64 bits are doubles, and so
is a negative zero, since only doubles have one.
-/
def ofIntegerLiteral (negative : Bool) (number : Nat) : Json :=
  if negative then
    if 0 < number ∧ number ≤ 9223372036854775808 then .int (-(number : Int))
    else ofMagnitude true number.toUInt64.toFloat
  else
    .int number

/-- A significand times a power of ten. Each of the two is rounded to a double before one scales the
other, and so is the outcome. It may be a neighbour of the double that is nearest to the literal.
-/
def ofDecimalLiteral (negative : Bool) (significand : Nat) (exponent : Int) : Json :=
  let value := significand.toUInt64.toFloat
  if exponent < 0 then
    ofMagnitude negative (scaleDown ((exponent.natAbs - 1) / mostPlaces) value exponent.natAbs)
  else if exponent ≤ mostPlaces then
    ofMagnitude negative (value * powerOfTen exponent.toNat)
  else if value == 0.0 then
    ofMagnitude negative value
  else
    .valueless

/-- What a literal denotes, by its digits before and after the point and its power of ten. Digits
that its significand has no room for are left out, and before the point they count as places.
-/
def ofLiteral (negative : Bool) (whole : List Char) (fraction : Option (List Char))
    (power : Option Int)
    : Json :=
  let (significand, beyond) := takeDigits 0 whole
  if fraction.isNone && power.isNone && beyond.isEmpty then
    ofIntegerLiteral negative significand
  else
    let digits := fraction.getD []
    let (significand, left) := takeDigits significand digits
    ofDecimalLiteral negative significand
      (power.getD 0 + beyond.length - (digits.length - left.length : Nat))

/-- Read the digits of an optional fraction; a point needs at least one. -/
def readFraction? : List Char → Option (Option (List Char) × List Char)
  | '.' :: text =>
      let (digits, rest) := Decimal.spanDigits text
      if digits.isEmpty then none else some (some digits, rest)
  | text => some (none, text)

/-- Read the digits of an exponent and apply its sign. -/
def readPower? (negative : Bool) (text : List Char) : Option (Option Int × List Char) :=
  let (digits, rest) := Decimal.spanDigits text
  if digits.isEmpty then none
  else
    let power : Int := Decimal.toNat digits
    some (some (if negative then -power else power), rest)

def readExponent? : List Char → Option (Option Int × List Char)
  | [] => some (none, [])
  | mark :: text =>
      if mark = 'e' ∨ mark = 'E' then
        match text with
        | '+' :: rest => readPower? false rest
        | '-' :: rest => readPower? true rest
        | rest => readPower? false rest
      else
        some (none, mark :: text)

/-- Read a number literal after its sign. -/
def readUnsigned? (negative : Bool) (text : List Char) : Option (Json × List Char) := do
  let (whole, rest) := Decimal.spanDigits text
  if whole.isEmpty || (whole.head? == some '0' && 1 < whole.length) then none
  else
    let (fraction, rest) ← readFraction? rest
    let (power, rest) ← readExponent? rest
    some (ofLiteral negative whole fraction power, rest)

def readNumber? : List Char → Option (Json × List Char)
  | '-' :: text => readUnsigned? true text
  | text => readUnsigned? false text

-----------------------------------------------------------------------------------------
-- Strings
-----------------------------------------------------------------------------------------

/-- A unit of a string literal: a character, or one half of a surrogate pair. -/
inductive StringUnit where
  | char (char : Char)
  | half (code : Nat)
deriving DecidableEq

/-- The first half of a surrogate pair. -/
def isHighHalf (code : Nat) : Bool :=
  0xD800 ≤ code && code < 0xDC00

/-- The second half of a surrogate pair. -/
def isLowHalf (code : Nat) : Bool :=
  0xDC00 ≤ code && code < 0xE000

/-- The unit that a four-digit escape denotes. -/
def StringUnit.ofCode (code : Nat) : StringUnit :=
  if isHighHalf code || isLowHalf code then .half code else .char (Char.ofNat code)

/-- The characters of a string literal, if every half stands in a pair. The characters found so
far are kept in reverse.
-/
def pairHalves? (found : List Char) : List StringUnit → Option (List Char)
  | [] => some found.reverse
  | .char char :: rest => pairHalves? (char :: found) rest
  | .half high :: .half low :: rest =>
      if isHighHalf high && isLowHalf low then
        let code := 0x10000 + (high - 0xD800) * 0x400 + (low - 0xDC00)
        pairHalves? (Char.ofNat code :: found) rest
      else
        none
  | .half _ :: _ => none

/-- The character that a one-letter escape denotes. -/
def shortEscape? (letter : Char) : Option Char :=
  if letter = '"' ∨ letter = '\\' ∨ letter = '/' then some letter
  else if letter = 'b' then some '\x08'
  else if letter = 'f' then some '\x0c'
  else if letter = 'n' then some '\n'
  else if letter = 'r' then some '\r'
  else if letter = 't' then some '\t'
  else none

/-- Read the units of a string literal up to its closing quote. The units found so far are kept
in reverse.
-/
def readUnits? (found : List StringUnit) : List Char → Option (List StringUnit × List Char)
  | [] => none
  | '"' :: rest => some (found.reverse, rest)
  | '\\' :: 'u' :: a :: b :: c :: d :: rest =>
      match Hex.toNat? [a, b, c, d] with
      | some code => readUnits? (StringUnit.ofCode code :: found) rest
      | none => none
  | '\\' :: letter :: rest =>
      match shortEscape? letter with
      | some char => readUnits? (.char char :: found) rest
      | none => none
  | char :: rest =>
      if char.toNat < 0x20 || char == '\\' then none
      else readUnits? (.char char :: found) rest

/-- Read a string literal after its opening quote; nothing is denoted by unpaired halves. -/
def readString? (text : List Char) : Option (Option String × List Char) :=
  (readUnits? [] text).map fun (units, rest) => ((pairHalves? [] units).map String.ofList, rest)

-----------------------------------------------------------------------------------------
-- Documents
-----------------------------------------------------------------------------------------

/-- What is left of a text after a required beginning. -/
def afterWord? : (word : List Char) → (text : List Char) → Option (List Char)
  | [], text => some text
  | _ :: _, [] => none
  | expected :: word, char :: text => if expected = char then afterWord? word text else none

/-- An object whose names all denote something, otherwise a valueless node. -/
def ofMembers (members : List (Option String × Json)) : Json :=
  match members.mapM (fun (name, value) => name.map (·, value)) with
  | some members => .obj members
  | none => .valueless

mutual

/-- Read one document at the start of a text. Every step takes one unit of fuel, and there are at
most two steps for every character.
-/
def readValue? : (fuel : Nat) → List Char → Option (Json × List Char)
  | 0, _ => none
  | _, [] => none
  | fuel + 1, head :: text =>
      if head = '{' then
        match skipSpace text with
        | '}' :: rest => some (.obj [], rest)
        | rest =>
            (readMembers? fuel rest).map (fun (members, rest) => (ofMembers members, rest))
      else if head = '[' then
        match skipSpace text with
        | ']' :: rest => some (.arr [], rest)
        | rest => (readElements? fuel rest).map (fun (elements, rest) => (.arr elements, rest))
      else if head = '"' then
        (readString? text).map (fun (value, rest) => ((value.map .str).getD .valueless, rest))
      else if head = 'n' then
        (afterWord? ['u', 'l', 'l'] text).map (.null, ·)
      else if head = 't' then
        (afterWord? ['r', 'u', 'e'] text).map (.bool true, ·)
      else if head = 'f' then
        (afterWord? ['a', 'l', 's', 'e'] text).map (.bool false, ·)
      else
        readNumber? (head :: text)

/-- Read the elements of an array up to its closing bracket; at least one is required. -/
def readElements? : (fuel : Nat) → List Char → Option (List Json × List Char)
  | 0, _ => none
  | fuel + 1, text => do
      let (element, rest) ← readValue? fuel text
      match skipSpace rest with
      | ',' :: rest =>
          let (elements, rest) ← readElements? fuel (skipSpace rest)
          some (element :: elements, rest)
      | ']' :: rest => some ([element], rest)
      | _ => none

/-- Read the members of an object up to its closing brace; at least one is required. -/
def readMembers? : (fuel : Nat) → List Char → Option (List (Option String × Json) × List Char)
  | 0, _ => none
  | fuel + 1, text => do
      let rest ← afterWord? ['"'] text
      let (name, rest) ← readString? rest
      let rest ← afterWord? [':'] (skipSpace rest)
      let (value, rest) ← readValue? fuel (skipSpace rest)
      match skipSpace rest with
      | ',' :: rest =>
          let (members, rest) ← readMembers? fuel (skipSpace rest)
          some ((name, value) :: members, rest)
      | '}' :: rest => some ([(name, value)], rest)
      | _ => none

end

/-- Read a text that holds exactly one document. -/
def ofChars? (text : List Char) : Option Json :=
  match readValue? (2 * text.length + 2) (skipSpace text) with
  | some (document, rest) => if (skipSpace rest).isEmpty then some document else none
  | none => none

/-- Read a string that holds exactly one document. -/
def ofText? (text : String) : Option Json :=
  ofChars? text.toList

end SharedBoard.Json
