import BodySpec.Calendar.Moment
import BodySpec.Calendar.Scan

/-!
# Timestamps

The form of RFC 3339, such as `1985-04-12T23:20:50.52Z`: every number has its full width, a `T` or a space stands
between day and time, and an offset from universal time ends it. The minus sign (U+2212) may stand for a hyphen in the
offset.
-/

namespace BodySpec.Calendar.Timestamp

/-- Hours and minutes of two digits each, in seconds. -/
def scanHoursMinutes (separator : Scan Unit) : Scan Int := do
  let hours ← Scan.digitsExactly 2
  separator
  let minutes ← Scan.digitsExactly 2
  if minutes < 60 then return hours * 3600 + minutes * 60 else failure

/-- `Z`, or a sign with hours and minutes. -/
def scanOffset : Scan Int := do
  let c ← Scan.oneOf ['Z', 'z', '+', '-', '\u2212']
  if c = 'Z' ∨ c = 'z' then return 0
  else
    let offset ← scanHoursMinutes (Scan.char ':')
    return if c = '+' then offset else -offset

/-- The moment as written, and its offset. -/
def scan : Scan (Moment × Int) := do
  let year ← Scan.digitsExactly 4
  Scan.char '-'
  let month ← Scan.digitsExactly 2
  Scan.char '-'
  let day ← Scan.digitsExactly 2
  let _ ← Scan.oneOf ['T', 't', ' ']
  let hour ← Scan.digitsExactly 2
  Scan.char ':'
  let minute ← Scan.digitsExactly 2
  Scan.char ':'
  let second ← Scan.digitsExactly 2
  Scan.fraction
  let offset ← scanOffset
  return ({ date := ⟨year, month, day⟩, hour, minute, second }, offset)

def accepts (s : List Char) : Bool := (Scan.whole? scan s).any fun (m, offset) => m.existsAt offset

end BodySpec.Calendar.Timestamp
