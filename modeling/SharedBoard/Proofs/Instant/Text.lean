import SharedBoard.Proofs.Decimal.Reading
import SharedBoard.Proofs.Instant.Calendar
import SharedBoard.Wire.Scalar

/-! The written form of an instant is read back. Each part is read from the text that it begins, and
no blank stands between the parts.
-/

namespace SharedBoard

namespace Text

/-- No blanks are dropped before a character that is not blank. -/
theorem skipBlanks_cons {char : Char} (visible : isBlank char = false) (rest : List Char)
    : skipBlanks (char :: rest) = char :: rest := by
  simp [skipBlanks, visible]

/-- Digits are not blank, since the blanks have other codes. -/
theorem isBlank_of_isDigit {char : Char} (digit : char.isDigit = true) : isBlank char = false := by
  simp only [Char.isDigit, Bool.and_eq_true, decide_eq_true_eq, ge_iff_le, UInt32.le_iff_toNat_le]
    at digit
  obtain ⟨low, high⟩ := digit
  have range : 48 ≤ char.toNat ∧ char.toNat ≤ 57 := ⟨low, high⟩
  simp only [isBlank, inRanges, blankRanges, List.any_cons, List.any_nil, Bool.or_false,
    Bool.or_eq_false_iff, Bool.and_eq_false_iff, decide_eq_false_iff_not]
  omega

/-- No blanks are dropped before a number. -/
theorem skipBlanks_padded (width number : Nat) (rest : List Char)
    : skipBlanks (Decimal.padded width number ++ rest)
      = Decimal.padded width number ++ rest := by
  cases digits : Decimal.padded width number with
  | nil => exact absurd digits (Decimal.padded_ne_nil _ _)
  | cons first others =>
      have digit : first.isDigit = true := by
        apply @Decimal.isDigit_of_mem_padded width number
        rw [digits]
        exact List.mem_cons_self
      exact skipBlanks_cons (isBlank_of_isDigit digit) (others ++ rest)

end Text

namespace Instant

open Decimal (EndsDigits padded)

-----------------------------------------------------------------------------------------
-- Parts
-----------------------------------------------------------------------------------------

/-- A year of four digits is read as a number, since a digit is no sign. -/
theorem readYear?_padded {year : Nat} (short : year ≤ 9999) {rest : List Char}
    (ends : EndsDigits rest)
    : readYear? (padded 4 year ++ rest) = some ((year : Int), rest) := by
  have read : Decimal.read? 4 (padded 4 year ++ rest) = some (year, rest) :=
    Decimal.read?_padded (by decide) (by omega) (Nat.le_refl 4) ends
  have digit (sign : Char) (text : List Char) (same : padded 4 year ++ rest = sign :: text)
      : sign.isDigit = true := by
    obtain ⟨empty, _⟩ | ⟨others, padding, _⟩ := List.append_eq_cons_iff.mp same
    · exact absurd empty (Decimal.padded_ne_nil _ _)
    · apply @Decimal.isDigit_of_mem_padded 4 year
      rw [padding]
      exact List.mem_cons_self
  unfold readYear?
  split
  · next text same => exact absurd (digit '-' text same) (by decide)
  · next text same => exact absurd (digit '+' text same) (by decide)
  · rw [read, Option.map_some]

/-- The digits of a year after its sign are read, however many they are. -/
theorem read?_signed (year : Nat) {rest : List Char} (ends : EndsDigits rest)
    : Decimal.read? (padded 4 year ++ rest).length (padded 4 year ++ rest) = some (year, rest) := by
  have within : (padded 4 year).length ≤ (padded 4 year ++ rest).length := by simp
  rw [Decimal.read?_append (Decimal.padded_ne_nil _ _) (fun _ => Decimal.isDigit_of_mem_padded)
    within ends, Decimal.toNat_padded]

/-- A written year is read back, with a sign or without. -/
theorem readYear?_yearChars (year : Int) {rest : List Char} (ends : EndsDigits rest)
    : readYear? (yearChars year ++ rest) = some (year, rest) := by
  unfold yearChars
  split
  · next plain =>
      rw [readYear?_padded (by omega) ends, Int.toNat_of_nonneg plain.1]
  · next long =>
      split
      · simp only [List.cons_append, readYear?, read?_signed _ ends, Option.map_some]
        congr 2
        omega
      · simp only [List.cons_append, readYear?, read?_signed _ ends, Option.map_some]
        congr 2
        omega

/-- No blanks are dropped before a year. -/
theorem skipBlanks_yearChars (year : Int) (rest : List Char)
    : Text.skipBlanks (yearChars year ++ rest) = yearChars year ++ rest := by
  unfold yearChars
  split
  · exact Text.skipBlanks_padded ..
  · split <;> exact Text.skipBlanks_cons (by decide) _

/-- A written date is read back if its month and its day have two digits. -/
theorem readDate?_dateChars {date : CivilDate} (month : date.month < 100) (day : date.day < 100)
    {rest : List Char} (ends : EndsDigits rest)
    : readDate? (dateChars date ++ rest) = some (date, rest) := by
  have hyphen (text : List Char) : EndsDigits ('-' :: text) := .cons (by decide) text
  have visible (text : List Char) : Text.skipBlanks ('-' :: text) = '-' :: text :=
    Text.skipBlanks_cons (by decide) text
  have two {number : Nat} (fits : number < 100) {text : List Char} (stops : EndsDigits text)
      : Decimal.read? 2 (padded 2 number ++ text) = some (number, text) :=
    Decimal.read?_padded (by decide) fits (Nat.le_refl 2) stops
  simp only [dateChars, List.append_assoc, List.cons_append, readDate?, skipBlanks_yearChars,
    readYear?_yearChars _ (hyphen _), visible, after?, if_true, Text.skipBlanks_padded,
    two month (hyphen _), two day ends, Option.bind_eq_bind, Option.bind_some]

/-- A written fraction is read back, since groups of zeros that are left out only scale it. -/
theorem readFraction?_fractionChars {nanoseconds : Nat} (small : nanoseconds < 1000000000)
    {rest : List Char} (ends : EndsDigits rest) (noPoint : rest.head? ≠ some '.')
    : readFraction? (fractionChars nanoseconds ++ rest) = some (nanoseconds, rest) := by
  have written {width number : Nat} (positive : 0 < width) (within : width ≤ 9)
      (fits : number < 10 ^ width)
      : readFraction? (('.' :: padded width number) ++ rest)
        = some (number * Nat.pow 10 (9 - width), rest) := by
    have noDigits : rest.dropWhile Char.isDigit = rest := (Prod.mk.inj ends.span).2
    simp only [List.cons_append, readFraction?, Decimal.read?_padded positive fits within ends,
      Option.map_some, noDigits, List.length_append, Decimal.length_padded positive fits,
      Nat.add_sub_cancel]
  unfold fractionChars
  split
  · next zero =>
      rw [beq_iff_eq] at zero
      subst zero
      unfold readFraction?
      split
      · next text point => exact absurd (congrArg List.head? point) noPoint
      · rfl
  · split
    · next millis =>
        rw [beq_iff_eq] at millis
        rw [written (by decide) (by decide) (by omega)]
        congr 2
        show nanoseconds / 1000000 * 1000000 = nanoseconds
        omega
    · split
      · next micros =>
          rw [beq_iff_eq] at micros
          rw [written (by decide) (by decide) (by omega)]
          congr 2
          show nanoseconds / 1000 * 1000 = nanoseconds
          omega
      · rw [written (by decide) (by decide) (by omega)]
        simp

/-- A written time of day is read back if its parts have two digits. -/
theorem readDayTime?_written {time : DayTime} (hour : time.hour < 100) (minute : time.minute < 100)
    (second : time.second < 100) (fraction : time.nanosecond < 1000000000) {rest : List Char}
    (ends : EndsDigits rest) (noPoint : rest.head? ≠ some '.')
    : readDayTime? (padded 2 time.hour ++ ':' :: (padded 2 time.minute
        ++ ':' :: (padded 2 time.second ++ (fractionChars time.nanosecond ++ rest))))
      = some (time, rest) := by
  have colon (text : List Char) : EndsDigits (':' :: text) := .cons (by decide) text
  have visible (text : List Char) : Text.skipBlanks (':' :: text) = ':' :: text :=
    Text.skipBlanks_cons (by decide) text
  have two {number : Nat} (fits : number < 100) {text : List Char} (stops : EndsDigits text)
      : Decimal.read? 2 (padded 2 number ++ text) = some (number, text) :=
    Decimal.read?_padded (by decide) fits (Nat.le_refl 2) stops
  have point : EndsDigits (fractionChars time.nanosecond ++ rest) := by
    unfold fractionChars
    split
    · exact ends
    · split
      · exact .cons (by decide) _
      · split <;> exact .cons (by decide) _
  simp only [readDayTime?, Text.skipBlanks_padded, two hour (colon _), visible, after?, if_true,
    two minute (colon _), two second point, readFraction?_fractionChars fraction ends noPoint,
    Option.bind_eq_bind, Option.bind_some]

-----------------------------------------------------------------------------------------
-- Instants
-----------------------------------------------------------------------------------------

/-- The time of day of an instant, as it is written. -/
def dayTime (instant : Instant) : DayTime where
  hour := (instant.seconds % 86400).toNat / 3600
  minute := (instant.seconds % 86400).toNat / 60 % 60
  second := (instant.seconds % 86400).toNat % 60 + instant.nanoseconds / 1000000000
  nanosecond := instant.nanoseconds % 1000000000

/-- The second of a minute is its sixtieth exactly in a leap second. -/
theorem second_dayTime (instant : Instant)
    : min instant.dayTime.second 59 = (instant.seconds % 86400).toNat % 60
      ∧ (if instant.dayTime.second = 60 then 1000000000 else 0)
        = instant.nanoseconds / 1000000000 * 1000000000
      ∧ instant.dayTime.second ≤ 60 := by
  have bound := instant.nanoseconds_lt
  have leap := instant.leap_second
  have second : instant.dayTime.second
      = (instant.seconds % 86400).toNat % 60 + instant.nanoseconds / 1000000000 := rfl
  by_cases long : 1000000000 ≤ instant.nanoseconds
  · have last := leap long
    have inLeap : instant.dayTime.second = 60 := by omega
    rw [if_pos inLeap]
    omega
  · have noLeap : instant.dayTime.second ≠ 60 := by omega
    rw [if_neg noLeap]
    omega

/-- The written parts of an instant name it: its date exists, its parts are in range, and the days
and seconds add up to its count.
-/
theorem ofParts?_written (instant : Instant)
    : ofParts? (CivilDate.ofDays (instant.seconds / 86400)) instant.dayTime 0 = some instant := by
  obtain ⟨second, leap, inMinute⟩ := second_dayTime instant
  have inCalendar := instant.in_calendar
  simp only [firstSecond, lastSecond] at inCalendar
  have year := @CivilDate.year_ofDays (instant.seconds / 86400) (by omega)
  have time : instant.dayTime.isValid = true := by
    simp only [DayTime.isValid, Bool.and_eq_true, decide_eq_true_eq]
    refine ⟨⟨?_, ?_⟩, inMinute⟩
    · simp only [dayTime]
      omega
    · simp only [dayTime]
      omega
  have count : instant.seconds / 86400 * 86400 + (instant.dayTime.hour * 3600
      + instant.dayTime.minute * 60 + (instant.seconds % 86400).toNat % 60 : Nat) - 0 * 60
      = instant.seconds := by
    simp only [dayTime]
    omega
  have nanoseconds : instant.dayTime.nanosecond + instant.nanoseconds / 1000000000 * 1000000000
      = instant.nanoseconds := by
    simp only [dayTime]
    omega
  rw [ofParts?, if_pos (by simp [CivilDate.isValid_ofDays, time, year])]
  simp only [second, leap, CivilDate.toDays_ofDays, count, nanoseconds, ofCount?_self]

/-- A written instant is read back, part by part. -/
@[simp] theorem ofText?_toText (instant : Instant) : ofText? instant.toText = some instant := by
  have valid := CivilDate.isValid_ofDays (instant.seconds / 86400)
  simp only [CivilDate.isValid, Bool.and_eq_true, decide_eq_true_eq] at valid
  have days : CivilDate.daysInMonth (CivilDate.ofDays (instant.seconds / 86400)).year
      (CivilDate.ofDays (instant.seconds / 86400)).month ≤ 31 := by
    unfold CivilDate.daysInMonth
    split
    · split <;> omega
    · split <;> omega
  have written : instant.toChars
      = dateChars (CivilDate.ofDays (instant.seconds / 86400))
        ++ 'T' :: (padded 2 instant.dayTime.hour ++ ':' :: (padded 2 instant.dayTime.minute
          ++ ':' :: (padded 2 instant.dayTime.second
            ++ (fractionChars instant.dayTime.nanosecond ++ ['Z'])))) := by
    simp [toChars, dayTime]
  have time : readDayTime? _ = some (instant.dayTime, ['Z']) :=
    readDayTime?_written (by simp only [dayTime]; omega) (by simp only [dayTime]; omega)
      (Nat.lt_of_le_of_lt (second_dayTime instant).2.2 (by decide))
      (Nat.mod_lt _ (by decide)) (.cons (by decide) []) (by decide)
  rw [ofText?, toText, String.toList_ofList, ofChars?, written,
    readDate?_dateChars (by omega) (by omega) (.cons (by decide) _)]
  simp only [Option.bind_eq_bind, Option.bind_some, readSeparator?, time]
  exact ofParts?_written instant

end Instant

/-- A written instant is read back, since its text is. -/
@[simp] theorem Json.instant?_ofInstant (instant : Instant)
    : (Json.ofInstant instant).instant? = some instant := by
  simp [Json.ofInstant, Json.instant?, Json.str?]

end SharedBoard
