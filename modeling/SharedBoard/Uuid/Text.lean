import SharedBoard.Uuid

/-! The written forms of identifiers. One form is written: 32 lower-case hexadecimal digits in
hyphenated groups. Four are read: that one, the plain digits, and the hyphenated form in braces
or after its scheme name.
-/

namespace SharedBoard

namespace Hex

/-- The value of a hexadecimal digit of either letter case. -/
def digit? (digit : Char) : Option Nat :=
  if digit.isDigit then
    some (digit.toNat - '0'.toNat)
  else if 'a' ≤ digit ∧ digit ≤ 'f' then
    some (digit.toNat - 'a'.toNat + 10)
  else if 'A' ≤ digit ∧ digit ≤ 'F' then
    some (digit.toNat - 'A'.toNat + 10)
  else
    none

/-- The last (width) hexadecimal digits of a number, most significant first. -/
def ofNat : (width : Nat) → (number : Nat) → List Char
  | 0, _ => []
  | width + 1, number => ofNat width (number / 16) ++ [Nat.digitChar (number % 16)]

/-- The number that a run of hexadecimal digits denotes. -/
def toNat? (digits : List Char) : Option Nat :=
  digits.foldlM (fun number digit => (digit? digit).map (16 * number + ·)) 0

/-- How many numbers a run of hexadecimal digits can denote. -/
def capacity : (width : Nat) → Nat
  | 0 => 1
  | width + 1 => 16 * capacity width

/-- As many digits are written as asked for, by induction on the width. -/
theorem length_ofNat (width number : Nat)
    : (ofNat width number).length = width := by
  induction width generalizing number with
  | zero => rfl
  | succ width ih => simp [ofNat, ih]

/-- The digit written for a value is read as that value, by checking the sixteen values. -/
theorem digit?_digitChar {value : Nat} (small : value < 16)
    : digit? (Nat.digitChar value) = some value := by
  have checked : ∀ value : Fin 16, digit? (Nat.digitChar value.val) = some value.val := by
    decide
  exact checked ⟨value, small⟩

/-- Fixed-width digits are read back modulo their capacity, by induction on the width. -/
theorem toNat?_ofNat (width number : Nat)
    : toNat? (ofNat width number) = some (number % capacity width) := by
  induction width generalizing number with
  | zero => simp [toNat?, ofNat, capacity, Nat.mod_one]
  | succ width ih =>
      have front : (ofNat width (number / 16)).foldlM
          (fun number digit => (digit? digit).map (16 * number + ·)) 0
          = some (number / 16 % capacity width) := ih (number / 16)
      simp only [toNat?, ofNat, List.foldlM_append, front, List.foldlM_cons, List.foldlM_nil]
      simp [digit?_digitChar (Nat.mod_lt number (by decide)), capacity]
      rw [Nat.mod_mul]
      omega

end Hex

namespace Uuid

/-- The lengths of the hyphenated groups of a written identifier. -/
def groupLengths : List Nat :=
  [8, 4, 4, 4, 12]

/-- The length of all groups together. -/
def totalLength (lengths : List Nat) : Nat :=
  lengths.foldr (fun length others => length + others) 0

/-- No groups have no length, by definition. -/
@[simp] theorem totalLength_nil
    : totalLength [] = 0 :=
  rfl

/-- The first group counts beside the others, by definition. -/
@[simp] theorem totalLength_cons (length : Nat) (lengths : List Nat)
    : totalLength (length :: lengths) = length + totalLength lengths :=
  rfl

/-- Cut a text into pieces of the given lengths and join them with hyphens. -/
def hyphenate : List Nat → List Char → List Char
  | [], digits => digits
  | [_], digits => digits
  | length :: lengths, digits =>
      digits.take length ++ '-' :: hyphenate lengths (digits.drop length)

/-- Take the hyphens out of a text whose pieces have exactly the given lengths. -/
def unhyphenate? : List Nat → List Char → Option (List Char)
  | [], text => if text.isEmpty then some [] else none
  | [length], text => if text.length = length then some text else none
  | length :: lengths, text =>
      match text.drop length with
      | '-' :: rest => (unhyphenate? lengths rest).map (text.take length ++ ·)
      | _ => none

/-- The written form: lower-case digits in groups of 8, 4, 4, 4 and 12. -/
def toChars (id : Uuid) : List Char :=
  hyphenate groupLengths (Hex.ofNat 32 id.toNat)

/-- The written form as a string. -/
def toText (id : Uuid) : String :=
  String.ofList id.toChars

/-- The scheme name that may stand before a hyphenated identifier, in any letter case. -/
def scheme : List Char :=
  "urn:uuid:".toList

def ofPlain? (text : List Char) : Option Uuid :=
  if text.length = 32 then (Hex.toNat? text).map ofNat else none

def ofHyphenated? (text : List Char) : Option Uuid :=
  (unhyphenate? groupLengths text).bind ofPlain?

/-- Read an identifier: the length of the text decides which of the four forms it can be. -/
def ofChars? (text : List Char) : Option Uuid :=
  if text.length = 32 then
    ofPlain? text
  else if text.length = 36 then
    ofHyphenated? text
  else if text.length = 38 then
    if text.head? = some '{' ∧ text.getLast? = some '}' then
      ofHyphenated? (text.drop 1).dropLast
    else
      none
  else if text.length = 45 then
    if (text.take 9).map Char.toLower = scheme then ofHyphenated? (text.drop 9) else none
  else
    none

/-- Read an identifier from a string. -/
def ofText? (text : String) : Option Uuid :=
  ofChars? text.toList

/-- Taking out the hyphens that were put in gives the digits back, by induction on the groups. -/
theorem unhyphenate?_hyphenate {lengths : List Nat} {digits : List Char}
    (total : digits.length = totalLength lengths)
    : unhyphenate? lengths (hyphenate lengths digits) = some digits := by
  induction lengths generalizing digits with
  | nil => simpa [unhyphenate?, hyphenate] using total
  | cons length lengths ih =>
      cases lengths with
      | nil =>
          have exact : digits.length = length := by simpa using total
          simp [unhyphenate?, hyphenate, exact]
      | cons next lengths =>
          simp only [totalLength_cons] at total
          have taken : (digits.take length).length = length := by
            simp
            omega
          have rest : (digits.drop length).length = totalLength (next :: lengths) := by
            simp
            omega
          simp [unhyphenate?, hyphenate, ih rest, taken]

/-- A hyphenated text has its digits and one hyphen between any two groups. -/
theorem length_hyphenate {lengths : List Nat} {digits : List Char}
    (total : digits.length = totalLength lengths)
    : (hyphenate lengths digits).length = digits.length + (lengths.length - 1) := by
  induction lengths generalizing digits with
  | nil => rfl
  | cons length lengths ih =>
      cases lengths with
      | nil => simp [hyphenate]
      | cons next lengths =>
          simp only [totalLength_cons] at total
          have rest : (digits.drop length).length = totalLength (next :: lengths) := by
            simp
            omega
          simp [hyphenate, ih rest]
          omega

/-- A written identifier is read back, since its 32 digits hold all its 128 bits. -/
@[simp] theorem ofText?_toText (id : Uuid)
    : ofText? id.toText = some id := by
  have total : (Hex.ofNat 32 id.toNat).length = totalLength groupLengths :=
    Hex.length_ofNat 32 id.toNat
  have long : id.toChars.length = 36 := by
    rw [toChars, length_hyphenate total, Hex.length_ofNat]
    rfl
  have digits : unhyphenate? groupLengths id.toChars = some (Hex.ofNat 32 id.toNat) :=
    unhyphenate?_hyphenate total
  have plain : ofPlain? (Hex.ofNat 32 id.toNat) = some id := by
    have small : id.toNat % Hex.capacity 32 = id.toNat := Nat.mod_eq_of_lt (toNat_lt id)
    rw [ofPlain?, if_pos (Hex.length_ofNat 32 id.toNat), Hex.toNat?_ofNat, small,
      Option.map_some, ofNat_toNat]
  simp [ofText?, toText, ofChars?, long, ofHyphenated?, digits, plain]

end Uuid

end SharedBoard
