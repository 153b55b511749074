import SharedBoard.Json.Reader
import SharedBoard.Json.Writer
import SharedBoard.Proofs.Decimal.Reading

/-! The literals of a document are read back from their text. A number ends only where no character
follows that could go on with it; a string ends at its quote.
-/

namespace SharedBoard.Json

open Decimal (EndsDigits spanDigits_append)

-----------------------------------------------------------------------------------------
-- Numbers
-----------------------------------------------------------------------------------------

/-- A text before which a number ends. -/
def EndsNumber (text : List Char) : Prop :=
  ∀ char ∈ text.head?, char.isDigit = false ∧ char ≠ '.' ∧ char ≠ 'e' ∧ char ≠ 'E'

theorem EndsNumber.nil : EndsNumber [] := by
  intro char first
  simp at first

theorem EndsNumber.cons {char : Char}
    (other : char.isDigit = false ∧ char ≠ '.' ∧ char ≠ 'e' ∧ char ≠ 'E') (text : List Char)
    : EndsNumber (char :: text) := by
  intro first same
  obtain rfl : char = first := by simpa using same
  exact other

theorem EndsNumber.endsDigits {text : List Char} (ends : EndsNumber text) : EndsDigits text :=
  fun char first => (ends char first).1

/-- There is no fraction in a text that ends a number. -/
theorem EndsNumber.readFraction? {text : List Char} (ends : EndsNumber text)
    : readFraction? text = some (none, text) := by
  unfold Json.readFraction?
  split
  · next rest => exact absurd rfl (ends '.' rfl).2.1
  · rfl

/-- There is no exponent in a text that ends a number. -/
theorem EndsNumber.readExponent? {text : List Char} (ends : EndsNumber text)
    : readExponent? text = some (none, text) := by
  cases text with
  | nil => rfl
  | cons mark rest =>
      obtain ⟨_, _, noMark⟩ := ends mark rfl
      simp [Json.readExponent?, noMark]

/-- Digits are taken from a text in the same way before a text that ends them. -/
theorem spanDigits_before {text after : List Char} (ends : EndsDigits after)
    : Decimal.spanDigits (text ++ after)
      = ((Decimal.spanDigits text).1, (Decimal.spanDigits text).2 ++ after) := by
  have parts : (Decimal.spanDigits text).1 ++ (Decimal.spanDigits text).2 = text :=
    List.takeWhile_append_dropWhile
  have run : ∀ char ∈ (Decimal.spanDigits text).1, char.isDigit = true :=
    fun char member => List.all_eq_true.mp List.all_takeWhile char member
  have stops : EndsDigits ((Decimal.spanDigits text).2 ++ after) := by
    intro char first
    cases left : (Decimal.spanDigits text).2 with
    | nil =>
        rw [left] at first
        exact ends char first
    | cons head rest =>
        rw [left] at first
        obtain rfl : head = char := by simpa using first
        have := List.head?_dropWhile_not Char.isDigit text
        rw [show text.dropWhile Char.isDigit = head :: rest from left] at this
        simpa using this
  calc Decimal.spanDigits (text ++ after)
      = Decimal.spanDigits ((Decimal.spanDigits text).1
          ++ ((Decimal.spanDigits text).2 ++ after)) := by
        rw [← List.append_assoc, parts]
    _ = _ := spanDigits_append run stops

/-- A fraction is read in the same way before a text that ends the number. -/
theorem readFraction?_before {text rest after : List Char} {digits : Option (List Char)}
    (ends : EndsNumber after) (read : readFraction? text = some (digits, rest))
    : readFraction? (text ++ after) = some (digits, rest ++ after) := by
  cases text with
  | nil =>
      obtain ⟨rfl, rfl⟩ := Prod.mk.inj (Option.some.inj read)
      exact ends.readFraction?
  | cons point text =>
      by_cases isPoint : point = '.'
      · subst isPoint
        simp only [readFraction?, Option.ite_none_left_eq_some] at read
        obtain ⟨nonempty, same⟩ := read
        obtain ⟨rfl, rfl⟩ := Prod.mk.inj (Option.some.inj same)
        simp [readFraction?, spanDigits_before ends.endsDigits, nonempty]
      · have none (text : List Char)
            : readFraction? (point :: text) = some (none, point :: text) := by
          simp [readFraction?, isPoint]
        rw [none] at read
        obtain ⟨rfl, rfl⟩ := Prod.mk.inj (Option.some.inj read)
        exact none (text ++ after)

/-- The digits of an exponent are read in the same way before a text that ends the number. -/
theorem readPower?_before {negative : Bool} {text rest after : List Char} {power : Option Int}
    (ends : EndsNumber after) (read : readPower? negative text = some (power, rest))
    : readPower? negative (text ++ after) = some (power, rest ++ after) := by
  simp only [readPower?, Option.ite_none_left_eq_some] at read
  obtain ⟨nonempty, same⟩ := read
  obtain ⟨rfl, rfl⟩ := Prod.mk.inj (Option.some.inj same)
  simp [readPower?, spanDigits_before ends.endsDigits, nonempty]

/-- An exponent is read in the same way before a text that ends the number. -/
theorem readExponent?_before {text rest after : List Char} {power : Option Int}
    (ends : EndsNumber after) (read : readExponent? text = some (power, rest))
    : readExponent? (text ++ after) = some (power, rest ++ after) := by
  cases text with
  | nil =>
      obtain ⟨rfl, rfl⟩ := Prod.mk.inj (Option.some.inj read)
      exact ends.readExponent?
  | cons mark text =>
      by_cases isMark : mark = 'e' ∨ mark = 'E'
      · cases text with
        | nil =>
            simp [readExponent?, isMark, readPower?, Decimal.spanDigits] at read
        | cons sign text =>
            by_cases plus : sign = '+'
            · subst plus
              simp only [readExponent?, if_pos isMark] at read
              simpa [readExponent?, isMark] using readPower?_before ends read
            · by_cases minus : sign = '-'
              · subst minus
                simp only [readExponent?, if_pos isMark] at read
                simpa [readExponent?, isMark] using readPower?_before ends read
              · have plain (text : List Char)
                    : readExponent? (mark :: sign :: text) = readPower? false (sign :: text) := by
                  simp [readExponent?, isMark, plus, minus]
                rw [plain] at read
                exact (plain _).trans (readPower?_before ends read)
      · have none (text : List Char)
            : readExponent? (mark :: text) = some (none, mark :: text) := by
          simp [readExponent?, isMark]
        rw [none] at read
        obtain ⟨rfl, rfl⟩ := Prod.mk.inj (Option.some.inj read)
        exact none (text ++ after)

/-- A number without its sign is read in the same way before a text that ends it, part by part. -/
theorem readUnsigned?_before {negative : Bool} {text rest after : List Char} {document : Json}
    (ends : EndsNumber after) (read : readUnsigned? negative text = some (document, rest))
    : readUnsigned? negative (text ++ after) = some (document, rest ++ after) := by
  simp only [readUnsigned?] at read ⊢
  rw [spanDigits_before ends.endsDigits]
  split at read
  · simp at read
  · next whole =>
      rw [if_neg whole]
      simp only [Option.bind_eq_bind, Option.bind_eq_some_iff] at read
      obtain ⟨⟨fraction, afterFraction⟩, atFraction, ⟨power, afterPower⟩, atPower, read⟩ := read
      simp only [readFraction?_before ends atFraction, readExponent?_before ends atPower,
        Option.bind_eq_bind, Option.bind_some]
      obtain ⟨rfl, rfl⟩ := Prod.mk.inj (Option.some.inj read)
      rfl

/-- A number is read in the same way before a text that ends it. -/
theorem readNumber?_before {text rest after : List Char} {document : Json}
    (ends : EndsNumber after) (read : readNumber? text = some (document, rest))
    : readNumber? (text ++ after) = some (document, rest ++ after) := by
  cases text with
  | nil => simp [readNumber?, readUnsigned?, Decimal.spanDigits] at read
  | cons sign text =>
      by_cases minus : sign = '-'
      · subst minus
        exact readUnsigned?_before ends read
      · have plain (text : List Char)
            : readNumber? (sign :: text) = readUnsigned? false (sign :: text) := by
          simp [readNumber?, minus]
        rw [plain] at read
        exact (plain _).trans (readUnsigned?_before ends read)

/-- A number begins with its sign or with a digit, since it has at least one. -/
theorem exists_of_readNumber? {text rest : List Char} {document : Json}
    (read : readNumber? text = some (document, rest))
    : ∃ head tail, text = head :: tail ∧ (head = '-' ∨ head.isDigit = true) := by
  cases text with
  | nil => simp [readNumber?, readUnsigned?, Decimal.spanDigits] at read
  | cons head tail =>
      refine ⟨head, tail, rfl, ?_⟩
      by_cases minus : head = '-'
      · exact .inl minus
      · refine .inr (Bool.not_eq_false _ ▸ fun other => ?_)
        simp [readNumber?, minus, readUnsigned?, Decimal.spanDigits, other] at read

/-- A number only grows with the digits that follow it. -/
theorem le_ofDigitChars (number : Nat) (digits : List Char)
    : number ≤ Nat.ofDigitChars 10 digits number := by
  have positive : 0 < 10 ^ digits.length := Nat.pow_pos (by decide)
  have grown := Nat.le_mul_of_pos_left number positive
  rw [Nat.ofDigitChars_eq_ofDigitChars_zero]
  omega

/-- All digits are taken if the number they make can be kept, by induction on them. -/
theorem takeDigits_of_le {significand : Nat} {digits : List Char}
    (fits : Nat.ofDigitChars 10 digits significand ≤ greatestSignificand)
    : takeDigits significand digits = (Nat.ofDigitChars 10 digits significand, []) := by
  induction digits generalizing significand with
  | nil => rfl
  | cons digit rest ih =>
      rw [Nat.ofDigitChars_cons] at fits ⊢
      rw [takeDigits, if_pos (Nat.le_trans (le_ofDigitChars _ rest) fits), ih fits]

/-- Digits alone are an integer literal if the number they make can be kept. -/
theorem ofLiteral_integer {negative : Bool} {whole : List Char}
    (fits : Decimal.toNat whole ≤ greatestSignificand)
    : ofLiteral negative whole none none = ofIntegerLiteral negative (Decimal.toNat whole) := by
  simp [ofLiteral, takeDigits_of_le fits, Decimal.toNat]

/-- A literal with a fraction or a power stands for all its digits and its places if the number they
make can be kept.
-/
theorem ofLiteral_decimal {negative : Bool} {whole : List Char} {fraction : Option (List Char)}
    {power : Option Int} (given : fraction.isSome || power.isSome)
    (fits : Decimal.toNat (whole ++ fraction.getD []) ≤ greatestSignificand)
    : ofLiteral negative whole fraction power
      = ofDecimalLiteral negative (Decimal.toNat (whole ++ fraction.getD []))
          (power.getD 0 - (fraction.getD []).length) := by
  have both : Nat.ofDigitChars 10 (fraction.getD []) (Decimal.toNat whole)
      = Decimal.toNat (whole ++ fraction.getD []) :=
    (Nat.ofDigitChars_append 0).symm
  rw [← both] at fits ⊢
  have first : takeDigits 0 whole = (Decimal.toNat whole, []) :=
    takeDigits_of_le (Nat.le_trans (le_ofDigitChars _ _) fits)
  have notInteger : (fraction.isNone && power.isNone) = false := by
    cases fraction <;> cases power <;> simp_all
  simp [ofLiteral, first, takeDigits_of_le fits, notInteger]

/-- The digits of a written number are read as a literal. -/
theorem readUnsigned?_ofNat (negative : Bool) (number : Nat) {after : List Char}
    (ends : EndsNumber after)
    : readUnsigned? negative (Decimal.ofNat number ++ after)
      = some (ofLiteral negative (Decimal.ofNat number) none none, after) := by
  have whole : ((Decimal.ofNat number).isEmpty || ((Decimal.ofNat number).head? == some '0'
      && 1 < (Decimal.ofNat number).length)) = false := by
    simp only [Bool.or_eq_false_iff, Bool.and_eq_false_iff, List.isEmpty_eq_false_iff]
    refine ⟨Decimal.ofNat_ne_nil _, ?_⟩
    by_cases leading : (Decimal.ofNat number).head? = some '0'
    · obtain rfl := Decimal.eq_zero_of_head?_ofNat leading
      exact .inr (by decide)
    · exact .inl (by simpa using leading)
  rw [readUnsigned?]
  simp only [spanDigits_append (fun _ => Decimal.isDigit_of_mem_ofNat) ends.endsDigits, whole,
    Bool.false_eq_true, if_false, ends.readFraction?, ends.readExponent?, Option.bind_eq_bind,
    Option.bind_some]

/-- A written integer of 64 bits is read back. -/
theorem readNumber?_writeInt {value : Int}
    (fits : -9223372036854775808 ≤ value ∧ value < 18446744073709551616) {after : List Char}
    (ends : EndsNumber after)
    : readNumber? (writeInt value after) = some (.int value, after) := by
  cases value with
  | ofNat number =>
      have small : number < 18446744073709551616 := Int.ofNat_lt.mp fits.2
      have literal : ofLiteral false (Decimal.ofNat number) none none = .int number := by
        have kept : Decimal.toNat (Decimal.ofNat number) ≤ greatestSignificand := by
          rw [Decimal.toNat_ofNat]
          exact Nat.le_of_lt_succ small
        rw [ofLiteral_integer kept, Decimal.toNat_ofNat, ofIntegerLiteral, if_neg (by decide)]
      have written := readUnsigned?_ofNat false number ends
      obtain ⟨head, digits, same, digit⟩ := Decimal.exists_ofNat number
      have noSign : head ≠ '-' := Decimal.ne_of_isDigit digit (by decide)
      rw [writeInt]
      rw [same] at written ⊢
      rw [same] at literal
      simpa [readNumber?, noSign, literal] using written
  | negSucc number =>
      have small : number + 1 ≤ 9223372036854775808 := by omega
      have literal : ofLiteral true (Decimal.ofNat (number + 1)) none none
          = .int (.negSucc number) := by
        have kept : Decimal.toNat (Decimal.ofNat (number + 1)) ≤ greatestSignificand := by
          rw [Decimal.toNat_ofNat]
          exact Nat.le_trans small (by decide)
        rw [ofLiteral_integer kept, Decimal.toNat_ofNat, ofIntegerLiteral, if_pos rfl,
          if_pos ⟨Nat.succ_pos number, small⟩]
        rfl
      rw [writeInt, ← literal]
      exact readUnsigned?_ofNat true (number + 1) ends

-----------------------------------------------------------------------------------------
-- Strings
-----------------------------------------------------------------------------------------

/-- An escape of four hexadecimal digits is read as the character with that code. -/
theorem readUnits?_hex (found : List StringUnit) {char : Char} (small : char.toNat < 0x20)
    (rest : List Char)
    : readUnits? found (['\\', 'u'] ++ Hex.ofNat 4 char.toNat ++ rest)
      = readUnits? (.char char :: found) rest := by
  have code := Hex.toNat?_ofNat 4 char.toNat
  have whole : char.toNat % Hex.capacity 4 = char.toNat :=
    Nat.mod_eq_of_lt (Nat.lt_trans small (by decide))
  have noHalf : StringUnit.ofCode char.toNat = .char char := by
    have high : isHighHalf char.toNat = false := by
      simp only [isHighHalf, Bool.and_eq_false_iff, decide_eq_false_iff_not]
      omega
    have low : isLowHalf char.toNat = false := by
      simp only [isLowHalf, Bool.and_eq_false_iff, decide_eq_false_iff_not]
      omega
    simp [StringUnit.ofCode, high, low]
  rw [whole] at code
  simp only [Hex.ofNat, List.nil_append, List.cons_append] at code ⊢
  rw [readUnits?]
  simp only [code, noHalf]

/-- The escape of a character is read as the character, by cases on the escape. -/
theorem readUnits?_escaped (found : List StringUnit) (char : Char) (rest : List Char)
    : readUnits? found (escaped char ++ rest) = readUnits? (.char char :: found) rest := by
  unfold escaped
  split
  · next same => simp [same, readUnits?, shortEscape?]
  split
  · next same => simp [same, readUnits?, shortEscape?]
  split
  · next same => simp [same, readUnits?, shortEscape?]
  split
  · next same => simp [same, readUnits?, shortEscape?]
  split
  · next same => simp [same, readUnits?, shortEscape?]
  split
  · next same => simp [same, readUnits?, shortEscape?]
  split
  · next same => simp [same, readUnits?, shortEscape?]
  split
  · next control => exact readUnits?_hex found control rest
  · next backslash _ _ _ _ _ visible =>
      rw [List.singleton_append, readUnits?.eq_def]
      simp [backslash, visible]

/-- Characters that all stand for themselves have no halves to pair, by induction over them. -/
theorem pairHalves?_map (found chars : List Char)
    : pairHalves? found (chars.map .char) = some (found.reverse ++ chars) := by
  induction chars generalizing found with
  | nil => simp [pairHalves?]
  | cons char rest ih => simp [pairHalves?, ih]

/-- The characters of a string are read up to its closing quote, by induction over them. -/
theorem readUnits?_escapes (found : List StringUnit) (chars after : List Char)
    : readUnits? found (chars.foldr (fun char rest => escaped char ++ rest) ('"' :: after))
      = some (found.reverse ++ chars.map .char, after) := by
  induction chars generalizing found with
  | nil => simp [readUnits?]
  | cons char rest ih =>
      rw [List.foldr_cons, readUnits?_escaped, ih, List.reverse_cons, List.append_assoc]
      rfl

/-- A written string is read back after its opening quote. -/
theorem readString?_writeString (value : String) (after : List Char)
    : ∃ text,
        writeString value after = '"' :: text ∧ readString? text = some (some value, after) := by
  refine ⟨_, rfl, ?_⟩
  simp only [readString?, readUnits?_escapes, List.reverse_nil, List.nil_append, Option.map_some,
    pairHalves?_map, String.ofList_toList]

end SharedBoard.Json
