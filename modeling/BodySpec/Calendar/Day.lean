/-!
# Days of the calendar

The proleptic Gregorian calendar, with years from -262143 to 262142. A day is given by its year, month and day of the
month; `number` counts the days from the first of January of the year 1, which was a Monday.
-/

namespace BodySpec.Calendar

def isLeapYear (year : Int) : Bool := year % 4 = 0 ∧ (year % 100 ≠ 0 ∨ year % 400 = 0)

/-- The number of days in a month, 0 for what is no month. -/
def daysInMonth (year : Int) (month : Nat) : Nat :=
  if month = 2 then (if isLeapYear year then 29 else 28)
  else if month = 4 ∨ month = 6 ∨ month = 9 ∨ month = 11 then 30
  else if 1 ≤ month ∧ month ≤ 12 then 31
  else 0

structure Day where
  year : Int
  month : Nat
  day : Nat

def minYear : Int := -262143

def maxYear : Int := 262142

/-- Whether there is such a day. -/
def Day.exists (d : Day) : Bool :=
  minYear ≤ d.year ∧ d.year ≤ maxYear ∧ 1 ≤ d.day ∧ d.day ≤ daysInMonth d.year d.month

/-- The days of the year before a month. -/
def daysBeforeMonth (year : Int) (month : Nat) : Nat :=
  (List.range month).foldl (fun days m => days + daysInMonth year m) 0

/-- The days from the first day of the year 1 to this one, both counted. -/
def Day.number (d : Day) : Int :=
  let y := d.year - 1
  365 * y + y / 4 - y / 100 + y / 400 + daysBeforeMonth d.year d.month + d.day

/-- The day of the week, with Monday as 0. -/
def Day.weekday (d : Day) : Nat := ((d.number - 1) % 7).toNat

end BodySpec.Calendar
