import BodySpec.Calendar.MailDate

/-!
# Date layouts

A layout is a list of parts that are read one after the other: numbers, a name of a month, characters and blanks. Blanks
before a number are skipped. A year has up to four digits, or any number of digits after a sign; every other number has
one or two. `Layout.moment?` is what a whole text says in a layout; what a layout leaves out is zero. A date may be
written in any of the layouts, or as a timestamp or a mail date (`isDate`).
-/

namespace BodySpec.Calendar

inductive LayoutPart where
  | year
  | month
  | day
  | hour
  | minute
  | second
  | fraction
  | monthName
  | blanks
  | char (c : Char)

abbrev Layout := List LayoutPart

namespace Layout

open Text

/-- A year with its sign, if it has one. -/
def scanYear : Scan Int := fun s =>
  match s with
  | '-' :: s => (Scan.digitsAtLeast 1 s).map fun (ds, rest) => (-(decimalValue ds : Int), rest)
  | '+' :: s => (Scan.digitsAtLeast 1 s).map fun (ds, rest) => ((decimalValue ds : Int), rest)
  | s => (Scan.digitsAtMost 4 s).map fun (n, rest) => ((n : Int), rest)

/-- A number of one or two digits, after any blanks. -/
def scanPair : Scan Nat := do
  Scan.blanks
  Scan.digitsAtMost 2

/-- Reads one part into a moment. -/
def scanPart (m : Moment) : LayoutPart → Scan Moment
  | .year => do
    Scan.blanks
    let year ← scanYear
    return { m with date.year := year }
  | .month => do
    let month ← scanPair
    return { m with date.month := month }
  | .day => do
    let day ← scanPair
    return { m with date.day := day }
  | .hour => do
    let hour ← scanPair
    return { m with hour }
  | .minute => do
    let minute ← scanPair
    return { m with minute }
  | .second => do
    let second ← scanPair
    return { m with second }
  | .fraction => do
    Scan.fraction
    return m
  | .monthName => do
    let month ← Scan.monthName
    return { m with date.month := month }
  | .blanks => do
    Scan.blanks
    return m
  | .char c => do
    Scan.char c
    return m

/-- Reads all parts. -/
def scan (layout : Layout) : Scan Moment := layout.foldlM scanPart { date := ⟨0, 0, 0⟩ }

/-- What a whole text says. -/
def moment? (layout : Layout) (s : List Char) : Option Moment := Scan.whole? layout.scan s

/-- Whether the text names a moment that exists. -/
def accepts (layout : Layout) (s : List Char) : Bool := (layout.moment? s).any Moment.exists

/-! ## The layouts in use -/

/-- Year, month and day with a separator. -/
def yearFirst (separator : Char) : Layout := [.year, .char separator, .month, .char separator, .day]

/-- Month, day and year with slashes. -/
def monthFirst : Layout := [.month, .char '/', .day, .char '/', .year]

/-- `May 4, 2020`, or without the comma. -/
def nameFirst (comma : Bool) : Layout :=
  [.monthName, .blanks, .day] ++ (if comma then [.char ','] else []) ++ [.blanks, .year]

/-- `4 May 2020`. -/
def dayFirst : Layout := [.day, .blanks, .monthName, .blanks, .year]

/-- A day and a time, with or without the seconds. -/
def dateTime (between : LayoutPart) (seconds : Bool) : Layout :=
  yearFirst '-' ++ [between, .hour, .char ':', .minute] ++
    (if seconds then [.char ':', .second, .fraction] else [])

def dateTimes : List Layout :=
  [dateTime (.char 'T') true, dateTime .blanks true, dateTime (.char 'T') false, dateTime .blanks false]

def dates : List Layout :=
  [yearFirst '-', yearFirst '/', monthFirst, nameFirst true, nameFirst false, dayFirst]

end Layout

/-- A text is a date if, without the blanks around it, it is a timestamp, a mail date, or a date in
one of the layouts. -/
def isDate (s : String) : Bool :=
  let s := Text.trim s.toList
  Timestamp.accepts s || MailDate.accepts s || (Layout.dateTimes ++ Layout.dates).any fun l => l.accepts s

end BodySpec.Calendar
