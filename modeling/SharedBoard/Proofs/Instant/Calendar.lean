import SharedBoard.Instant
import SharedBoard.Instant.Calendar

/-! The calendar counts every day once: the date of a day exists and is that many days away. A cycle
of 400 years is told apart from the others first; inside it years begin with March.
-/

namespace SharedBoard.CivilDate

/-- The days of a cycle before a year of it. -/
def yearStart (year : Int) : Int :=
  365 * year + year / 4 - year / 100 + year / 400

/-- The year of a cycle that holds a day of it. -/
def yearAt (day : Int) : Int :=
  (day - day / 1460 + day / 36524 - day / 146096) / 365

/-- The date of a day counted from the first of March. -/
def ofMarch (year : Int) (dayOfYear : Nat) : CivilDate :=
  let month := (5 * dayOfYear + 2) / 153
  let civilMonth := if month < 10 then month + 3 else month - 9
  ⟨if civilMonth ≤ 2 then year + 1 else year, civilMonth, dayOfYear - (153 * month + 2) / 5 + 1⟩

/-- Later days are in later years, by comparing quotients. -/
theorem yearAt_mono {early late : Int} (ordered : early ≤ late)
    : yearAt early ≤ yearAt late := by
  have quads : late / 1460 - early / 1460 ≤ late - early := by omega
  have centuries : early / 36524 ≤ late / 36524 := Int.ediv_le_ediv (by decide) ordered
  have cycles (day : Int) : day / 146096 = day / 36524 / 4 := by omega
  apply Int.ediv_le_ediv (by decide)
  rw [cycles early, cycles late]
  generalize early / 36524 = low at centuries ⊢
  generalize late / 36524 = high at centuries ⊢
  omega

/-- The first and the last day of a year are in that year, and it has a 366th day only if the
following civil year is a leap year, by checking the years of a cycle.
-/
theorem yearAt_bounds {year : Int} (inCycle : 0 ≤ year ∧ year < 400)
    : yearAt (yearStart year) = year
      ∧ yearAt (yearStart (year + 1) - 1) = year
      ∧ yearStart (year + 1)
        = yearStart year + if isLeapYear (year + 1) then 366 else 365 := by
  have checked : ∀ year : Fin 400,
      yearAt (yearStart (year.val : Nat)) = (year.val : Nat)
      ∧ yearAt (yearStart ((year.val : Nat) + 1) - 1) = (year.val : Nat)
      ∧ yearStart ((year.val : Nat) + 1)
        = yearStart (year.val : Nat)
          + if isLeapYear ((year.val : Nat) + 1) then 366 else 365 := by
    decide +kernel
  obtain ⟨number, rfl⟩ := Int.eq_ofNat_of_zero_le inCycle.1
  exact checked ⟨number, by omega⟩

/-- A day of a cycle lies between the beginning of its year and that of the next, since otherwise it
would be in another year.
-/
theorem yearStart_le_day {day : Int} (inCycle : 0 ≤ day ∧ day < 146097)
    : 0 ≤ yearAt day
      ∧ yearAt day < 400
      ∧ yearStart (yearAt day) ≤ day
      ∧ day < yearStart (yearAt day + 1) := by
  have range : 0 ≤ yearAt day ∧ yearAt day < 400 := by
    unfold yearAt
    omega
  refine ⟨range.1, range.2, ?_, ?_⟩
  · refine Int.not_lt.mp fun early => ?_
    by_cases first : yearAt day = 0
    · rw [first] at early
      exact absurd early (Int.not_lt.mpr inCycle.1)
    · obtain ⟨_, last, _⟩ := @yearAt_bounds (yearAt day - 1) (by omega)
      rw [Int.sub_add_cancel] at last
      have := @yearAt_mono day (yearStart (yearAt day) - 1) (by omega)
      omega
  · refine Int.not_le.mp fun late => ?_
    by_cases last : yearAt day = 399
    · rw [last] at late
      have whole : yearStart (399 + 1) = 146097 := by decide
      omega
    · obtain ⟨first, _, _⟩ := @yearAt_bounds (yearAt day + 1) (by omega)
      have := @yearAt_mono (yearStart (yearAt day + 1)) day (by omega)
      omega

/-- A day in its cycle, its year of the cycle and its place in that year. -/
theorem exists_cycle (days : Int)
    : ∃ cycle year : Int, ∃ dayOfYear : Nat,
        (0 ≤ year ∧ year < 400)
        ∧ (dayOfYear < 365 ∨ dayOfYear = 365 ∧ isLeapYear (year + 1) = true)
        ∧ days + 719468 = cycle * 146097 + yearStart year + dayOfYear
        ∧ ofDays days = ofMarch (year + cycle * 400) dayOfYear := by
  have inCycle : 0 ≤ days + 719468 - (days + 719468) / 146097 * 146097
      ∧ days + 719468 - (days + 719468) / 146097 * 146097 < 146097 := by
    omega
  obtain ⟨low, high, starts, ends⟩ := yearStart_le_day inCycle
  generalize same : days + 719468 - (days + 719468) / 146097 * 146097 = day
    at inCycle low high starts ends
  obtain ⟨_, _, long⟩ := yearAt_bounds ⟨low, high⟩
  refine ⟨(days + 719468) / 146097, yearAt day, (day - yearStart (yearAt day)).toNat,
    ⟨low, high⟩, ?_, by omega, ?_⟩
  · split at long
    · next leap =>
        by_cases last : (day - yearStart (yearAt day)).toNat < 365
        · exact .inl last
        · exact .inr ⟨by omega, leap⟩
    · exact .inl (by omega)
  · have noCycle : yearAt day / 400 = 0 := by omega
    have start : yearStart (yearAt day)
        = 365 * yearAt day + yearAt day / 4 - yearAt day / 100 := by
      rw [yearStart, noCycle, Int.add_zero]
    rw [start]
    simp only [ofDays, same]
    rfl

/-- The months of a year that begins with March, by checking its days. -/
theorem ofMarch_parts {dayOfYear : Nat} (inYear : dayOfYear < 366)
    : let month := (5 * dayOfYear + 2) / 153
      let start := (153 * month + 2) / 5
      let civilMonth := if month < 10 then month + 3 else month - 9
      let day := dayOfYear - start + 1
      month = (civilMonth + 9) % 12
      ∧ start ≤ dayOfYear
      ∧ (1 ≤ civilMonth ∧ civilMonth ≤ 12)
      ∧ (civilMonth = 2 → day ≤ 29)
      ∧ (civilMonth = 2 → dayOfYear < 365 → day ≤ 28)
      ∧ (civilMonth ≠ 2 → ∀ year, day ≤ daysInMonth year civilMonth) := by
  have checked : ∀ dayOfYear : Fin 366,
      let month := (5 * dayOfYear.val + 2) / 153
      let start := (153 * month + 2) / 5
      let civilMonth := if month < 10 then month + 3 else month - 9
      let day := dayOfYear.val - start + 1
      month = (civilMonth + 9) % 12
      ∧ start ≤ dayOfYear.val
      ∧ (1 ≤ civilMonth ∧ civilMonth ≤ 12)
      ∧ (civilMonth = 2 → day ≤ 29)
      ∧ (civilMonth = 2 → dayOfYear.val < 365 → day ≤ 28)
      ∧ (civilMonth ≠ 2 → day ≤ daysInMonth 1 civilMonth) := by
    decide +kernel
  obtain ⟨first, second, third, fourth, fifth, last⟩ := checked ⟨dayOfYear, inYear⟩
  refine ⟨first, second, third, fourth, fifth, fun other year => ?_⟩
  have anyYear (month : Nat) (other : month ≠ 2)
      : daysInMonth year month = daysInMonth 1 month := by
    simp [daysInMonth, other]
  rw [anyYear _ other]
  exact last other

/-- The days to a date counted from March. -/
theorem toDays_ofMarch {cycle year : Int} (inCycle : 0 ≤ year ∧ year < 400) {dayOfYear : Nat}
    (inYear : dayOfYear < 366)
    : (ofMarch (year + cycle * 400) dayOfYear).toDays
      = cycle * 146097 + yearStart year + dayOfYear - 719468 := by
  obtain ⟨month, start, _⟩ := ofMarch_parts inYear
  have shifted : (if (ofMarch (year + cycle * 400) dayOfYear).month ≤ 2 then
        (ofMarch (year + cycle * 400) dayOfYear).year - 1
      else (ofMarch (year + cycle * 400) dayOfYear).year) = year + cycle * 400 := by
    simp only [ofMarch]
    split <;> omega
  simp only [toDays, shifted]
  simp only [ofMarch, ← month]
  have era : (year + cycle * 400) / 400 = cycle := by omega
  have noCycle : year / 400 = 0 := by omega
  rw [era, Int.add_sub_cancel, yearStart, noCycle]
  omega

/-- The date of a day is that many days away. -/
theorem toDays_ofDays (days : Int) : (ofDays days).toDays = days := by
  obtain ⟨cycle, year, dayOfYear, inCycle, inYear, same, date⟩ := exists_cycle days
  rw [date, toDays_ofMarch inCycle (by omega)]
  omega

/-- Leap years repeat from cycle to cycle. -/
theorem isLeapYear_add_cycles (year cycle : Int)
    : isLeapYear (year + cycle * 400) = isLeapYear year := by
  have fours : (year + cycle * 400) % 4 = year % 4 := by omega
  have centuries : (year + cycle * 400) % 100 = year % 100 := by omega
  have cycles : (year + cycle * 400) % 400 = year % 400 := by omega
  simp only [isLeapYear, fours, centuries, cycles]

/-- The date of a day exists: February is as long as its year needs, and the other months are the
same in all years.
-/
theorem isValid_ofDays (days : Int) : (ofDays days).isValid = true := by
  obtain ⟨cycle, year, dayOfYear, _, inYear, _, date⟩ := exists_cycle days
  obtain ⟨_, _, inRange, february, common, others⟩ := @ofMarch_parts dayOfYear (by omega)
  rw [date]
  simp only [isValid, Bool.and_eq_true, decide_eq_true_eq]
  simp only [ofMarch]
  refine ⟨⟨⟨inRange.1, inRange.2⟩, by omega⟩, ?_⟩
  generalize (if (5 * dayOfYear + 2) / 153 < 10 then (5 * dayOfYear + 2) / 153 + 3
    else (5 * dayOfYear + 2) / 153 - 9) = month at february common others ⊢
  by_cases second : month = 2
  · subst second
    simp only [daysInMonth, Nat.le_refl, if_true, beq_self_eq_true]
    rcases inYear with short | ⟨_, leap⟩
    · have := common rfl short
      split <;> omega
    · have next : year + cycle * 400 + 1 = year + 1 + cycle * 400 := by omega
      rw [next, isLeapYear_add_cycles, leap]
      exact february rfl
  · exact others second _

/-- January and February belong to the next civil year. -/
theorem year_ofMarch (year : Int) {dayOfYear : Nat} (inYear : dayOfYear < 366)
    : (ofMarch year dayOfYear).year = if 306 ≤ dayOfYear then year + 1 else year := by
  simp only [ofMarch]
  by_cases newYear : 306 ≤ dayOfYear
  · rw [if_pos newYear, if_pos (by split <;> omega)]
  · rw [if_neg newYear, if_neg (by split <;> omega)]

/-- The first day of the calendar begins its first year and the last one ends its last year, which
only the first and the last cycle have to be looked at for.
-/
theorem year_ofDays {days : Int} (inCalendar : -96465292 ≤ days ∧ days ≤ 95026236)
    : -262143 ≤ (ofDays days).year ∧ (ofDays days).year ≤ 262142 := by
  obtain ⟨cycle, year, dayOfYear, inCycle, inYear, same, date⟩ := exists_cycle days
  have short : dayOfYear < 366 := by omega
  rw [date, year_ofMarch _ short]
  have start : 365 * year ≤ yearStart year ∧ yearStart year ≤ 365 * year + year / 4 := by
    unfold yearStart
    omega
  have first : cycle = -656 → 256 ≤ year ∧ (year = 256 → 306 ≤ dayOfYear) := by
    intro _
    have : yearStart 256 = 93502 := by decide
    refine ⟨by omega, fun atStart => ?_⟩
    subst atStart
    omega
  have last : cycle = 655 → year ≤ 142 ∧ (year = 142 → dayOfYear < 306) := by
    intro _
    have : yearStart 142 = 51864 := by decide
    refine ⟨by omega, fun atEnd => ?_⟩
    subst atEnd
    omega
  have cycles : -656 ≤ cycle ∧ cycle ≤ 655 := by omega
  split <;> omega

end SharedBoard.CivilDate
