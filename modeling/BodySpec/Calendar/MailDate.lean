import BodySpec.Calendar.Timestamp

/-!
# Mail dates

The form of RFC 2822, such as `Fri, 21 Nov 1997 09:55:06 -0600 (comment)`, with its older forms: years of two or three
digits, zones by name, and comments at the end. A weekday, if given, must be that of the day.
-/

namespace BodySpec.Calendar.MailDate

open Text

/-- A weekday and a comma, if the text begins with a weekday. -/
def scanWeekday : Scan (Option Nat) := fun s =>
  match Scan.wordOf Scan.weekdays s with
  | some (day, ',' :: s) => some (some day, s)
  | some _ => none
  | none => some (none, s)

/-- A year; one of two digits lies from 1950 to 2049, one of three digits counts from 1900. -/
def scanYear : Scan Nat := do
  let ds ← Scan.digitsAtLeast 2
  let n := decimalValue ds
  return if ds.length = 2 then (if n < 50 then n + 2000 else n + 1900)
    else if ds.length = 3 then n + 1900
    else n

/-- The seconds, if a colon follows. -/
def scanSecond : Scan Nat := fun s =>
  match trimStart s with
  | ':' :: s => Scan.digitsExactly 2 s
  | _ => some (0, s)

/-- The hours from universal time of the zones that have a name. -/
def zoneHours? (name : List Char) : Option Int :=
  match String.ofList (name.map Char.toLower) with
  | "gmt" | "ut" | "z" => some 0
  | "edt" => some (-4)
  | "est" | "cdt" => some (-5)
  | "cst" | "mdt" => some (-6)
  | "mst" | "pdt" => some (-7)
  | "pst" => some (-8)
  | other => if other.length = 1 ∧ other ≠ "j" then some 0 else none

/-- A zone by its name or by its offset. -/
def scanZone : Scan Int := fun s =>
  let name := s.takeWhile Char.isAlpha
  if name.isEmpty then
    (do
      let c ← Scan.oneOf ['+', '-']
      let offset ← Timestamp.scanHoursMinutes (return ())
      return if c = '+' then offset else -offset : Scan Int) s
  else (zoneHours? name).map fun hours => (hours * 3600, s.dropWhile Char.isAlpha)

/-- The rest of a comment in which parentheses are open to the depth given. A backslash takes
the next character along. -/
def commentRest? : Nat → List Char → Option (List Char)
  | _, [] => none
  | depth, '\\' :: s =>
    match s with
    | _ :: s => commentRest? depth s
    | [] => none
  | depth, '(' :: s => commentRest? (depth + 1) s
  | depth, ')' :: s => if depth = 1 then some s else commentRest? (depth - 1) s
  | depth, _ :: s => commentRest? depth s

/-- What is left after a comment. -/
def comment? (s : List Char) : Option (List Char) :=
  match trimStart s with
  | '(' :: s => commentRest? 1 s
  | _ => none

/-- What is left after all comments, of which there are no more than characters. -/
def skipComments : Nat → List Char → List Char
  | 0, s => s
  | n + 1, s =>
    match comment? s with
    | some rest => skipComments n rest
    | none => s

/-- The weekday, the moment as written, and its offset. -/
def scan : Scan (Option Nat × Moment × Int) := do
  Scan.blanks
  let weekday ← scanWeekday
  Scan.blanks
  let day ← Scan.digitsAtMost 2
  Scan.someBlanks
  let month ← Scan.shortMonth
  Scan.someBlanks
  let year ← scanYear
  Scan.someBlanks
  let hour ← Scan.digitsExactly 2
  Scan.blanks
  Scan.char ':'
  Scan.blanks
  let minute ← Scan.digitsExactly 2
  let second ← scanSecond
  Scan.someBlanks
  let offset ← scanZone
  modify fun s => skipComments s.length s
  return (weekday, { date := ⟨year, month, day⟩, hour, minute, second }, offset)

def accepts (s : List Char) : Bool :=
  (Scan.whole? scan s).any fun (weekday, m, offset) =>
    m.existsAt offset && weekday.all (· == m.date.weekday)

end BodySpec.Calendar.MailDate
