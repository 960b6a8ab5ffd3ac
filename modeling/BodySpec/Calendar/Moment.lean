import BodySpec.Calendar.Day

/-!
# Moments

A day with a time of day. The second 60 is allowed everywhere. A moment with an offset from universal time counts only
if the moment in universal time lies within the calendar.
-/

namespace BodySpec.Calendar

structure Moment where
  date : Day
  hour : Nat := 0
  minute : Nat := 0
  second : Nat := 0

/-- Whether there is such a day and such a time of day. -/
def Moment.exists (m : Moment) : Bool := m.date.exists ∧ m.hour ≤ 23 ∧ m.minute ≤ 59 ∧ m.second ≤ 60

/-- The seconds from the start of the year 1; the second 60 counts as 59. -/
def Moment.seconds (m : Moment) : Int :=
  ((m.date.number - 1) * 24 + m.hour) * 3600 + m.minute * 60 + min m.second 59

/-- The first second of the calendar, and the last. -/
def firstSecond : Int := Moment.seconds { date := ⟨minYear, 1, 1⟩ }

def lastSecond : Int := Moment.seconds { date := ⟨maxYear, 12, 31⟩, hour := 23, minute := 59, second := 59 }

/-- Whether the moment exists and, with the offset given in seconds, exists in universal time too. -/
def Moment.existsAt (m : Moment) (offset : Int) : Bool :=
  m.exists ∧ -86400 < offset ∧ offset < 86400 ∧
    firstSecond ≤ m.seconds - offset ∧ m.seconds - offset ≤ lastSecond

end BodySpec.Calendar
