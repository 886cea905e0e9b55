import Cohort.Time.Calendar

/-!
A leap second is told apart by a thousand million nanoseconds or more: it lengthens the
last second of a minute, so it comes after that second and before the next minute.
-/

namespace Cohort

def secondNanos : Nat := 1000000000

/-- Are these a second of a day and its nanoseconds? -/
abbrev IsTimeOfDay (second nano : Nat) : Prop :=
  second < 86400 ∧ nano < 2 * secondNanos ∧ (secondNanos ≤ nano → second % 60 = 59)

/-- A point in universal time. -/
structure Instant where
  date : Date
  /-- The second of the day. -/
  second : Nat
  /-- The nanoseconds, a thousand million or more within a leap second. -/
  nano : Nat
  valid : IsTimeOfDay second nano
  deriving DecidableEq

namespace Instant

def ofParts? (date : Date) (second nano : Nat) : Option Instant :=
  if valid : IsTimeOfDay second nano then some { date, second, nano, valid } else none

/-- The parts of an instant from the greatest to the smallest. -/
def parts (instant : Instant) : List Int :=
  [instant.date.year, instant.date.month, instant.date.day, instant.second, instant.nano]

end Instant

end Cohort
