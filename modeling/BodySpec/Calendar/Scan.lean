import BodySpec.Text.Blank
import BodySpec.Text.Digits

/-!
# Scanning dates

A scanner takes characters from the front of a text, or fails. The names of months and weekdays are read in any ASCII
case.
-/

namespace BodySpec.Calendar

/-- Takes a value from the front of a text. -/
abbrev Scan := StateT (List Char) Option

namespace Scan

open Text

/-- Whether a scanner takes the whole text, and the value it takes. -/
def whole? {α : Type} (p : Scan α) (s : List Char) : Option α :=
  match p s with
  | some (a, []) => some a
  | _ => none

/-- Any blanks. -/
def blanks : Scan Unit := fun s => some ((), trimStart s)

/-- One blank or more. -/
def someBlanks : Scan Unit := fun s =>
  match s with
  | c :: s => if isBlank c then some ((), trimStart s) else none
  | [] => none

def char (c : Char) : Scan Unit := fun s =>
  match s with
  | d :: s => if d = c then some ((), s) else none
  | [] => none

/-- One of the characters. -/
def oneOf (cs : List Char) : Scan Char := fun s =>
  match s with
  | d :: s => if d ∈ cs then some (d, s) else none
  | [] => none

/-- As many digits as given, no fewer; more are left. -/
def digitsExactly (count : Nat) : Scan Nat := fun s =>
  let (ds, rest) := digitsUpTo count s
  if ds.length = count then some (decimalValue ds, rest) else none

/-- One digit or more, but no more than given. -/
def digitsAtMost (count : Nat) : Scan Nat := fun s =>
  match digitsUpTo count s with
  | ([], _) => none
  | (ds, rest) => some (decimalValue ds, rest)

/-- All digits at the front, of which there are at least as many as given. -/
def digitsAtLeast (count : Nat) : Scan (List Nat) := fun s =>
  let (ds, rest) := digits s
  if count ≤ ds.length then some (ds, rest) else none

/-- A point with at least one digit, if there is a point. -/
def fraction : Scan Unit := fun s =>
  match s with
  | '.' :: s =>
    match digits s with
    | ([], _) => none
    | (_, rest) => some ((), rest)
  | s => some ((), s)

/-- The position of the first word that begins the text, in any case; the words are in lower case. -/
def wordOf (words : List String) : Scan Nat := fun s =>
  (words.findIdx? fun w => (s.take w.length).map Char.toLower = w.toList).bind fun i =>
    (words[i]?).map fun w => (i, s.drop w.length)

def weekdays : List String := ["mon", "tue", "wed", "thu", "fri", "sat", "sun"]

/-- The full names of the months. -/
def months : List String :=
  ["january", "february", "march", "april", "may", "june", "july", "august", "september", "october", "november",
    "december"]

/-- The first three letters of a month, which is counted from 1. -/
def shortMonth : Scan Nat := do
  let i ← wordOf (months.map fun m => String.ofList (m.toList.take 3))
  return i + 1

/-- The name of a month: its first three letters, and the rest of it if that follows. -/
def monthName : Scan Nat := do
  let month ← shortMonth
  let rest := ((months.getD (month - 1) "").toList.drop 3)
  fun s => if (s.take rest.length).map Char.toLower = rest then some (month, s.drop rest.length) else some (month, s)

end Scan

end BodySpec.Calendar
