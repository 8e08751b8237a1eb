/-!
# The Gregorian calendar

Dates of the Gregorian calendar, continued into the past and counted with a year zero, and their
numbers as days since 1970-01-01. Inside a cycle of 400 years, which has 146097 days, a date is
placed by taking March as the first month: then the leap day is the last day of its year and the
lengths of the months follow one rule.
-/

namespace Weblog.Time

/-- Whether a year has a leap day. -/
def isLeapYear (year : Int) : Bool :=
  year % 4 = 0 && (year % 100 != 0 || year % 400 = 0)

/-- The number of days of a month, and zero for a number that names no month. -/
def daysInMonth (year : Int) : Nat → Nat
  | 1 | 3 | 5 | 7 | 8 | 10 | 12 => 31
  | 4 | 6 | 9 | 11 => 30
  | 2 => if isLeapYear year then 29 else 28
  | _ => 0

/-- A year, a month from 1 and a day from 1. -/
structure Date where
  year : Int
  month : Nat
  day : Nat
  deriving DecidableEq

namespace Date

/-- Whether the calendar has this date. -/
def Valid (d : Date) : Prop :=
  1 ≤ d.day ∧ d.day ≤ daysInMonth d.year d.month

instance (d : Date) : Decidable d.Valid :=
  inferInstanceAs (Decidable (1 ≤ d.day ∧ d.day ≤ daysInMonth d.year d.month))

/-- The days from 1970-01-01 to a date. -/
def toDays (d : Date) : Int :=
  let year := if d.month ≤ 2 then d.year - 1 else d.year
  let yearOfCycle := year % 400
  let dayOfYear : Int := (153 * ((d.month + 9) % 12) + 2) / 5 + d.day - 1
  let dayOfCycle := yearOfCycle * 365 + yearOfCycle / 4 - yearOfCycle / 100 + dayOfYear
  year / 400 * 146097 + dayOfCycle - 719468

/-- The date that is a number of days after 1970-01-01. -/
def ofDays (days : Int) : Date :=
  let dayOfCycle := ((days + 719468) % 146097).toNat
  let yearOfCycle :=
    (dayOfCycle + dayOfCycle / 36524 - dayOfCycle / 1460 - dayOfCycle / 146096) / 365
  let dayOfYear := dayOfCycle + yearOfCycle / 100 - 365 * yearOfCycle - yearOfCycle / 4
  let month := (5 * dayOfYear + 2) / 153
  let year : Int := (days + 719468) / 146097 * 400 + yearOfCycle
  { year := if month < 10 then year else year + 1
    month := if month < 10 then month + 3 else month - 9
    day := dayOfYear + 1 - (153 * month + 2) / 5 }

end Date

end Weblog.Time
