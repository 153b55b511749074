import Mathlib.Data.Nat.Digits.Lemmas
import SharedBoard.Proofs.Text.Spelling
import SharedBoard.Uuid.Text

/-! Which texts are read as identifiers, and as which: those of the four written forms, and no
others. The reader goes by the length of a text; the forms themselves do not mention it.
-/

namespace SharedBoard

namespace Hex

/-- A digit of a value, in either letter case. -/
def IsDigit (digit : Char) (value : Nat) : Prop :=
  value < 16 ∧ (digit = Nat.digitChar value ∨ digit = (Nat.digitChar value).toUpper)

instance (digit : Char) (value : Nat) : Decidable (IsDigit digit value) :=
  inferInstanceAs (Decidable (_ ∧ _))

/-- A run of digits for a number, the most significant one first. -/
def Denotes (digits : List Char) (number : Nat) : Prop :=
  ∃ values, List.Forall₂ IsDigit digits values ∧ Nat.ofDigits 16 values.reverse = number

theorem isAscii_of_digit? {digit : Char} {value : Nat} (read : digit? digit = some value)
    : digit.toNat < 128 := by
  have bounded (last : Char) (small : last.toNat < 128) (below : digit ≤ last)
      : digit.toNat < 128 :=
    Nat.lt_of_le_of_lt (UInt32.le_iff_toNat_le.mp below) small
  unfold digit? at read
  split at read
  case isTrue decimal =>
    simp only [Char.isDigit, Bool.and_eq_true, decide_eq_true_eq] at decimal
    exact bounded '9' (by decide) decimal.2
  case isFalse =>
    split at read
    case isTrue small => exact bounded 'f' (by decide) small.2
    case isFalse =>
      split at read
      case isTrue capital => exact bounded 'F' (by decide) capital.2
      case isFalse => simp at read

/-- The digits that are read as a value are its digits, by checking the ASCII characters. -/
theorem digit?_eq_some_iff {digit : Char} {value : Nat}
    : digit? digit = some value ↔ IsDigit digit value := by
  constructor
  · intro read
    have checked : ∀ code : Fin 128, ∀ value ∈ digit? (Char.ofNat code.val),
        IsDigit (Char.ofNat code.val) value := by
      decide
    have named := checked ⟨digit.toNat, isAscii_of_digit? read⟩ value
    rw [Char.ofNat_toNat] at named
    exact named read
  · rintro ⟨small, written⟩
    have checked : ∀ value : Fin 16, digit? (Nat.digitChar value) = some value.val
        ∧ digit? (Nat.digitChar value).toUpper = some value.val := by
      decide
    rcases written with rfl | rfl
    · exact (checked ⟨value, small⟩).1
    · exact (checked ⟨value, small⟩).2

/-- Digits are read on from a number by reading them one by one, by induction on the digits. -/
theorem foldlM_digit?_eq_some_iff {digits : List Char} {start number : Nat}
    : digits.foldlM (fun number digit => (digit? digit).map (16 * number + ·)) start = some number
      ↔ ∃ values, List.Forall₂ IsDigit digits values
        ∧ values.foldl (fun number value => 16 * number + value) start = number := by
  induction digits generalizing start with
  | nil => simp
  | cons digit digits ih =>
      simp only [List.foldlM_cons, Option.bind_eq_bind, Option.bind_eq_some_iff,
        Option.map_eq_some_iff, digit?_eq_some_iff, ih, List.forall₂_cons_left_iff]
      constructor
      · rintro ⟨_, ⟨value, first, rfl⟩, values, others, sum⟩
        exact ⟨value :: values, ⟨value, values, first, others, rfl⟩, sum⟩
      · rintro ⟨_, ⟨value, values, first, others, rfl⟩, sum⟩
        exact ⟨_, ⟨value, first, rfl⟩, values, others, sum⟩

/-- A run of digits is read as the number that it denotes. -/
theorem toNat?_eq_some_iff {digits : List Char} {number : Nat}
    : toNat? digits = some number ↔ Denotes digits number := by
  have positional (values : List Nat)
      : Nat.ofDigits 16 values.reverse
        = values.foldl (fun number value => 16 * number + value) 0 := by
    simp [Nat.ofDigits_eq_foldr, Nat.add_comm]
  simp only [toNat?, foldlM_digit?_eq_some_iff, Denotes, positional]

/-- A run of digits denotes a number that it has place for. -/
theorem Denotes.lt {digits : List Char} {number : Nat} (denotes : Denotes digits number)
    : number < 16 ^ digits.length := by
  obtain ⟨values, each, rfl⟩ := denotes
  have small : ∀ value ∈ values, value < 16 := by
    have flipped : List.Forall₂ (fun value digit => value < 16 ∧ _) values digits := each.flip
    exact ((List.forall₂_and_left values digits).mp flipped).1
  have bound := Nat.ofDigits_lt_base_pow_length (by decide : 1 < 16)
    (fun value member => small value (List.mem_reverse.mp member))
  rwa [List.length_reverse, ← each.length_eq] at bound

end Hex

namespace Uuid

/-- The 32 digits of an identifier, in letters of either case. -/
def Digits (id : Uuid) (digits : List Char) : Prop :=
  digits.length = 32 ∧ Hex.Denotes digits id.toNat

/-- The texts for an identifier: its digits, plain or in hyphenated groups, and the groups in
braces or after the scheme name.
-/
inductive Written (id : Uuid) : List Char → Prop where
  | plain {digits : List Char} (spelled : Digits id digits) : Written id digits
  | hyphenated {digits : List Char} (spelled : Digits id digits)
      : Written id (hyphenate groupLengths digits)
  | braced {digits : List Char} (spelled : Digits id digits)
      : Written id ('{' :: (hyphenate groupLengths digits ++ ['}']))
  | named {name digits : List Char} (scheme : Text.Spells name scheme)
      (spelled : Digits id digits)
      : Written id (name ++ hyphenate groupLengths digits)

/-- The digits of an identifier are those that are read as it, since 32 digits never pass 128
bits.
-/
theorem ofPlain?_eq_some_iff {text : List Char} {id : Uuid}
    : ofPlain? text = some id ↔ Digits id text := by
  rw [ofPlain?, Digits]
  by_cases long : text.length = 32
  · simp only [long, if_true, true_and, Option.map_eq_some_iff, Hex.toNat?_eq_some_iff]
    constructor
    · rintro ⟨number, denotes, rfl⟩
      have small : number < 2 ^ 128 := by
        have bound := denotes.lt
        rw [long] at bound
        exact Nat.lt_of_lt_of_eq bound (by decide)
      have same : (ofNat number).toNat = number := by
        rw [ofNat, toNat, BitVec.toNat_ofNat, Nat.mod_eq_of_lt small]
      rwa [same]
    · exact fun denotes => ⟨id.toNat, denotes, ofNat_toNat id⟩
  · simp [long]

/-- Hyphens are taken out of the texts that they were put in for digits of the right number, by
induction on the lengths.
-/
theorem unhyphenate?_eq_some_iff {lengths : List Nat} {text digits : List Char}
    : unhyphenate? lengths text = some digits
      ↔ digits.length = totalLength lengths ∧ text = hyphenate lengths digits := by
  constructor
  · intro read
    induction lengths generalizing text digits with
    | nil =>
        obtain ⟨empty, rfl⟩ : text = [] ∧ [] = digits := by simpa [unhyphenate?] using read
        exact ⟨rfl, empty⟩
    | cons length lengths ih =>
        cases lengths with
        | nil =>
            obtain ⟨exact, rfl⟩ : text.length = length ∧ text = digits := by
              simpa [unhyphenate?] using read
            exact ⟨exact, rfl⟩
        | cons next lengths =>
            simp only [unhyphenate?] at read
            split at read
            case h_2 => simp at read
            case h_1 rest hyphen =>
              obtain ⟨others, readOthers, rfl⟩ := Option.map_eq_some_iff.mp read
              obtain ⟨total, rfl⟩ := ih readOthers
              -- The hyphen stands behind the first piece, which has its whole length therefore.
              have whole : (text.take length).length = length := by
                have some := congrArg List.length hyphen
                simp only [List.length_drop, List.length_cons] at some
                rw [List.length_take]
                omega
              constructor
              · rw [List.length_append, whole, total, totalLength_cons length]
              · rw [hyphenate, List.take_left' whole, List.drop_left' whole, ← hyphen,
                  List.take_append_drop]
                exact List.cons_ne_nil next lengths
  · rintro ⟨total, rfl⟩
    exact unhyphenate?_hyphenate total

/-- The hyphenated form is read as the identifier of its digits. -/
theorem ofHyphenated?_eq_some_iff {text : List Char} {id : Uuid}
    : ofHyphenated? text = some id
      ↔ ∃ digits, Digits id digits ∧ text = hyphenate groupLengths digits := by
  simp only [ofHyphenated?, Option.bind_eq_some_iff, ofPlain?_eq_some_iff,
    unhyphenate?_eq_some_iff]
  constructor
  · rintro ⟨digits, ⟨_, rfl⟩, spelled⟩
    exact ⟨digits, spelled, rfl⟩
  · rintro ⟨digits, spelled, rfl⟩
    exact ⟨digits, ⟨spelled.1, rfl⟩, spelled⟩

/-- The hyphenated form has 36 characters. -/
theorem Digits.length_hyphenate {id : Uuid} {digits : List Char} (spelled : Digits id digits)
    : (hyphenate groupLengths digits).length = 36 := by
  rw [Uuid.length_hyphenate spelled.1, spelled.1]
  rfl

/-- A scheme name in any letter case has nine characters. -/
theorem spells_scheme_iff {name : List Char}
    : Text.Spells name scheme ↔ name.map Char.toLower = scheme :=
  Text.spells_iff (by decide)

theorem length_of_spells_scheme {name : List Char} (spells : Text.Spells name scheme)
    : name.length = 9 :=
  spells.length_eq

/-- A text in braces holds the hyphenated form if that is read between them. -/
theorem written_of_braces {text : List Char} {id : Uuid} (opened : text.head? = some '{')
    (closed : text.getLast? = some '}')
    (read : ofHyphenated? (text.drop 1).dropLast = some id)
    : Written id text := by
  obtain ⟨digits, spelled, inner⟩ := ofHyphenated?_eq_some_iff.mp read
  obtain ⟨front, rfl⟩ := List.getLast?_eq_some_iff.mp closed
  cases front with
  | nil => simp at opened
  | cons char front =>
      obtain rfl : char = '{' := by simpa using opened
      have same : front = hyphenate groupLengths digits := by simpa using inner
      rw [same]
      exact .braced spelled

/-- A text after the scheme name holds the hyphenated form if that is read there. -/
theorem written_of_scheme {text : List Char} {id : Uuid}
    (named : (text.take 9).map Char.toLower = scheme)
    (read : ofHyphenated? (text.drop 9) = some id)
    : Written id text := by
  obtain ⟨digits, spelled, rest⟩ := ofHyphenated?_eq_some_iff.mp read
  rw [← List.take_append_drop 9 text, rest]
  exact .named (spells_scheme_iff.mpr named) spelled

/-- What is read has one of the four forms, by cases on the length that the reader goes by. -/
theorem written_of_ofChars? {text : List Char} {id : Uuid} (read : ofChars? text = some id)
    : Written id text := by
  unfold ofChars? at read
  split_ifs at read with plain hyphenated braced braces named scheme
  · exact .plain (ofPlain?_eq_some_iff.mp read)
  · obtain ⟨digits, spelled, rfl⟩ := ofHyphenated?_eq_some_iff.mp read
    exact .hyphenated spelled
  · exact written_of_braces braces.1 braces.2 read
  · exact written_of_scheme scheme read

/-- Each of the four forms is read, since their lengths tell them apart. -/
theorem Written.ofChars? {text : List Char} {id : Uuid} (written : Written id text)
    : Uuid.ofChars? text = some id := by
  cases written with
  | plain spelled => rw [Uuid.ofChars?, if_pos spelled.1, ofPlain?_eq_some_iff.mpr spelled]
  | hyphenated spelled =>
      have read := ofHyphenated?_eq_some_iff.mpr ⟨_, spelled, rfl⟩
      simp [Uuid.ofChars?, spelled.length_hyphenate, read]
  | @braced digits spelled =>
      have read := ofHyphenated?_eq_some_iff.mpr ⟨_, spelled, rfl⟩
      have closed : ('{' :: hyphenate groupLengths digits ++ ['}']).getLast? = some '}' :=
        List.getLast?_concat
      rw [List.cons_append] at closed
      simp [Uuid.ofChars?, spelled.length_hyphenate, closed, read]
  | @named name digits scheme spelled =>
      have read := ofHyphenated?_eq_some_iff.mpr ⟨_, spelled, rfl⟩
      have nine := length_of_spells_scheme scheme
      have taken : (name ++ hyphenate groupLengths digits).take 9 = name := List.take_left' nine
      have left : (name ++ hyphenate groupLengths digits).drop 9
          = hyphenate groupLengths digits := List.drop_left' nine
      simp [Uuid.ofChars?, spelled.length_hyphenate, nine, taken, left, read,
        spells_scheme_iff.mp scheme]

/-- Texts of the four forms are read as their identifiers, and no other text is read. -/
theorem ofChars?_eq_some_iff {text : List Char} {id : Uuid}
    : ofChars? text = some id ↔ Written id text :=
  ⟨written_of_ofChars?, Written.ofChars?⟩

end Uuid

end SharedBoard
