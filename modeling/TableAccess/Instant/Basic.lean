/-!
# Instants

The proleptic Gregorian calendar, in which counting starts in March, so that the
leap day is the last day of its year; and points in time, as whole seconds from
the first of January 1970 in universal time and nanoseconds within the second. A
leap second is the second before it with a thousand million nanoseconds or more.
Stored time stamps count microseconds.
-/

namespace TableAccess.Calendar

def isLeapYear (year : Int) : Bool :=
  year % 4 == 0 && (year % 100 != 0 || year % 400 == 0)

def daysInMonth (year : Int) (month : Nat) : Nat :=
  if month = 2 then if isLeapYear year then 29 else 28
  else if month = 4 ∨ month = 6 ∨ month = 9 ∨ month = 11 then 30
  else 31

/-- Whether a year, a month and a day name a date. -/
def isDate (year : Int) (month day : Nat) : Bool :=
  1 ≤ month && month ≤ 12 && 1 ≤ day && day ≤ daysInMonth year month

/-- Days from the first of January 1970 to a date; earlier dates are negative. -/
def dayNumber (year : Int) (month day : Nat) : Int :=
  let marchYear := if month ≤ 2 then year - 1 else year
  let marchMonth := (month + 9) % 12
  365 * marchYear + marchYear / 4 - marchYear / 100 + marchYear / 400
    + ((153 * marchMonth + 2) / 5 : Nat) + day - 719469

end TableAccess.Calendar

namespace TableAccess

structure Instant where
  /-- Whole seconds since the epoch, rounded down. -/
  seconds : Int
  /-- Nanoseconds after them. -/
  nanos : Nat
  deriving DecidableEq, Repr

namespace Instant

/-- The least and the greatest count of microseconds that names an instant. -/
def leastMicros : Int := -8334601228800000000

@[inherit_doc leastMicros]
def greatestMicros : Int := 8210266876799999999

/-- The instant of a count of microseconds, within the calendar's range. -/
def ofMicros? (micros : Int) : Option Instant :=
  if leastMicros ≤ micros ∧ micros ≤ greatestMicros then
    some ⟨micros / 1000000, (micros % 1000000).toNat * 1000⟩
  else none

/-- Microseconds since the epoch; what is below a microsecond is dropped. -/
def micros (i : Instant) : Int :=
  i.seconds * 1000000 + (i.nanos / 1000 : Nat)

end Instant

end TableAccess
