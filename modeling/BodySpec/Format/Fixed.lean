import BodySpec.Format.Letters

/-!
# Formats of fixed shape

Identifiers, intervals, names and passwords. Each is matched as a whole: nothing may come before or after, not even a
line feed at the end.
-/

namespace BodySpec.Format

open Pattern

/-- Any character but the line feed. -/
def inLine : Pattern := char (· != '\n')

/-- 3 to 64 characters on one line. -/
def userId : Pattern := between 3 64 inLine

/-- 8 to 64 characters on one line. -/
def password : Pattern := between 8 64 inLine

/-- 24 hexadecimal digits. -/
def objectId : Pattern := exactly 24 hexDigit

/-- Hexadecimal digits, or nothing. -/
def hex : Pattern := star hexDigit

def hyphen : Pattern := char (· == '-')

/-- A random (version 4) identifier, in groups of 8, 4, 4, 4 and 12 hexadecimal digits. -/
def guid : Pattern :=
  seq (exactly 8 hexDigit) (seq hyphen (seq (exactly 4 hexDigit) (seq hyphen
    (seq (char (· == '4')) (seq (exactly 3 hexDigit) (seq hyphen
      (seq (char (isAmong "89abAB".toList)) (seq (exactly 3 hexDigit) (seq hyphen (exactly 12 hexDigit))))))))))

def timeUnits : List String := ["seconds", "minutes", "hours", "days", "weeks", "months", "years"]

/-- A number of one to four digits and a unit of time, such as `30 days`. -/
def interval : Pattern :=
  seq (between 1 4 digit) (seq (char (· == ' ')) (anyOf (timeUnits.map fun u => text u.toList)))

end BodySpec.Format
