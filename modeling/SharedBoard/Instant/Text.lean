import SharedBoard.Decimal.Digits
import SharedBoard.Instant
import SharedBoard.Instant.Calendar
import SharedBoard.Text.Blank

/-! The written form of instants is that of RFC 3339. One spelling is written: universal time,
with no fraction or the shortest of three, six and nine digits. Reading is lenient: blanks may
stand between the parts, parts may be short, and any offset is taken to universal time.
-/

namespace SharedBoard.Instant

-----------------------------------------------------------------------------------------
-- Writing
-----------------------------------------------------------------------------------------

/-- The fraction of a second, in the fewest groups of three digits that lose nothing. -/
def fractionChars (nanoseconds : Nat) : List Char :=
  if nanoseconds == 0 then
    []
  else if nanoseconds % 1000000 == 0 then
    '.' :: Decimal.padded 3 (nanoseconds / 1000000)
  else if nanoseconds % 1000 == 0 then
    '.' :: Decimal.padded 6 (nanoseconds / 1000)
  else
    '.' :: Decimal.padded 9 nanoseconds

/-- The year, with four digits and no sign when it has at most four and is not negative. -/
def yearChars (year : Int) : List Char :=
  if 0 ≤ year ∧ year ≤ 9999 then
    Decimal.padded 4 year.toNat
  else
    (if year < 0 then '-' else '+') :: Decimal.padded 4 year.natAbs

def dateChars (date : CivilDate) : List Char :=
  yearChars date.year ++ '-' :: Decimal.padded 2 date.month ++ '-' :: Decimal.padded 2 date.day

/-- The written form: a leap second is second 60 of its minute. -/
def toChars (instant : Instant) : List Char :=
  let secondOfDay := (instant.seconds % 86400).toNat
  let leap := instant.nanoseconds / 1000000000
  dateChars (CivilDate.ofDays (instant.seconds / 86400))
    ++ 'T' :: Decimal.padded 2 (secondOfDay / 3600)
    ++ ':' :: Decimal.padded 2 (secondOfDay / 60 % 60)
    ++ ':' :: Decimal.padded 2 (secondOfDay % 60 + leap)
    ++ fractionChars (instant.nanoseconds % 1000000000)
    ++ ['Z']

/-- The written form as a string. -/
def toText (instant : Instant) : String :=
  String.ofList instant.toChars

-----------------------------------------------------------------------------------------
-- Reading
-----------------------------------------------------------------------------------------

/-- What is left of a text after one required character. -/
def after? (char : Char) : List Char → Option (List Char)
  | [] => none
  | head :: rest => if head = char then some rest else none

/-- Read a year: any number of digits after a sign, at most four without one. -/
def readYear? (text : List Char) : Option (Int × List Char) :=
  match text with
  | '-' :: rest => (Decimal.read? rest.length rest).map (fun (year, rest) => (-(year : Int), rest))
  | '+' :: rest => (Decimal.read? rest.length rest).map (fun (year, rest) => ((year : Int), rest))
  | _ => (Decimal.read? 4 text).map (fun (year, rest) => ((year : Int), rest))

/-- Read a date; blanks may stand before each of its parts. -/
def readDate? (text : List Char) : Option (CivilDate × List Char) := do
  let (year, rest) ← readYear? (Text.skipBlanks text)
  let rest ← after? '-' (Text.skipBlanks rest)
  let (month, rest) ← Decimal.read? 2 (Text.skipBlanks rest)
  let rest ← after? '-' (Text.skipBlanks rest)
  let (day, rest) ← Decimal.read? 2 (Text.skipBlanks rest)
  some (⟨year, month, day⟩, rest)

/-- The character between date and time. -/
def readSeparator? : List Char → Option (List Char)
  | 'T' :: rest => some rest
  | 't' :: rest => some rest
  | ' ' :: rest => some rest
  | _ => none

/-- Read an optional fraction in nanoseconds; digits beyond the ninth are dropped. -/
def readFraction? : List Char → Option (Nat × List Char)
  | '.' :: text =>
      (Decimal.read? 9 text).map fun (value, rest) =>
        (value * Nat.pow 10 (9 - (text.length - rest.length)), rest.dropWhile Char.isDigit)
  | text => some (0, text)

/-- A time of day, where second 60 is a leap second. -/
structure DayTime where
  hour : Nat
  minute : Nat
  second : Nat
  nanosecond : Nat

/-- The parts are within their ranges. -/
def DayTime.isValid (time : DayTime) : Bool :=
  time.hour ≤ 23 && time.minute ≤ 59 && time.second ≤ 60

/-- Read a time of day; blanks may stand before each of its parts. -/
def readDayTime? (text : List Char) : Option (DayTime × List Char) := do
  let (hour, rest) ← Decimal.read? 2 (Text.skipBlanks text)
  let rest ← after? ':' (Text.skipBlanks rest)
  let (minute, rest) ← Decimal.read? 2 (Text.skipBlanks rest)
  let rest ← after? ':' (Text.skipBlanks rest)
  let (second, rest) ← Decimal.read? 2 (Text.skipBlanks rest)
  let (nanosecond, rest) ← readFraction? rest
  some (⟨hour, minute, second, nanosecond⟩, rest)

def twoDigits? : List Char → Option (Nat × List Char)
  | tens :: units :: rest =>
      if tens.isDigit && units.isDigit then some (Decimal.toNat [tens, units], rest) else none
  | _ => none

/-- Read an offset from universal time in minutes: a name of universal time, or a sign, two
digits of hours and two of minutes with any colons and blanks between them.
-/
def readOffset? (text : List Char) : Option (Int × List Char) :=
  if (text.take 3).map Char.toUpper = ['U', 'T', 'C'] then
    some (0, text.drop 3)
  else
    match text with
    | [] => none
    | sign :: rest =>
        if sign = 'Z' ∨ sign = 'z' then
          some (0, rest)
        else do
          let factor ←
            if sign = '+' then some (1 : Int)
            else if sign = '-' ∨ sign = '−' then some (-1)
            else none
          let (hours, rest) ← twoDigits? rest
          let (minutes, rest) ←
            twoDigits? (rest.dropWhile (fun char => char == ':' || Text.isBlank char))
          if hours ≤ 23 ∧ minutes ≤ 59 then
            some (factor * (hours * 60 + minutes : Nat), rest)
          else
            none

/-- The instant that a date, a time of day and an offset name, if they are valid. -/
def ofParts? (date : CivilDate) (time : DayTime) (offset : Int) : Option Instant :=
  if date.isValid && time.isValid && -262143 ≤ date.year && date.year ≤ 262142 then
    let second := min time.second 59
    let leap := if time.second = 60 then 1000000000 else 0
    ofCount?
      (date.toDays * 86400 + (time.hour * 3600 + time.minute * 60 + second : Nat) - offset * 60)
      (time.nanosecond + leap)
  else
    none

/-- Read an instant; nothing but blanks may follow. -/
def ofChars? (text : List Char) : Option Instant := do
  let (date, rest) ← readDate? text
  let rest ← readSeparator? rest
  let (time, rest) ← readDayTime? rest
  let (offset, rest) ← readOffset? (Text.skipBlanks rest)
  if (Text.skipBlanks rest).isEmpty then ofParts? date time offset else none

/-- Read an instant from a string. -/
def ofText? (text : String) : Option Instant :=
  ofChars? text.toList

end SharedBoard.Instant
