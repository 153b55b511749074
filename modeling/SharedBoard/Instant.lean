/-! Instants are points of universal time, counted in seconds from the start of 1970 and
nanoseconds within the second. The nanoseconds of a leap second run on past the last second of
its minute.
-/

namespace SharedBoard

namespace Instant

/-- The first second of the calendar, at the start of the year -262143. -/
def firstSecond : Int :=
  -8334601228800

/-- The last second of the calendar, at the end of the year 262142. -/
def lastSecond : Int :=
  8210266876799

end Instant

/-- A point of universal time. -/
structure Instant where
  seconds : Int
  nanoseconds : Nat
  nanoseconds_lt : nanoseconds < 2000000000
  leap_second : 1000000000 ≤ nanoseconds → seconds % 60 = 59
  in_calendar : Instant.firstSecond ≤ seconds ∧ seconds ≤ Instant.lastSecond
deriving DecidableEq

namespace Instant

def epoch : Instant :=
  ⟨0, 0, by decide, by decide, by decide⟩

instance : Inhabited Instant :=
  ⟨epoch⟩

/-- The instant with the given count, if the calendar has it. -/
def ofCount? (seconds : Int) (nanoseconds : Nat) : Option Instant :=
  if valid : nanoseconds < 2000000000
      ∧ (1000000000 ≤ nanoseconds → seconds % 60 = 59)
      ∧ firstSecond ≤ seconds ∧ seconds ≤ lastSecond then
    some ⟨seconds, nanoseconds, valid.1, valid.2.1, valid.2.2⟩
  else
    none

/-- The count of an instant is a count of an instant, by its own bounds. -/
@[simp] theorem ofCount?_self (instant : Instant)
    : ofCount? instant.seconds instant.nanoseconds = some instant := by
  rw [ofCount?, dif_pos ⟨instant.nanoseconds_lt, instant.leap_second, instant.in_calendar⟩]

end Instant

end SharedBoard
