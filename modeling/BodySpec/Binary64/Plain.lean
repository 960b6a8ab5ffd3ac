import BodySpec.Binary64.Basic
import BodySpec.Text.Digits

/-!
# Plain decimals

A plain decimal has a sign if any, and digits with at most one point; there are digits after a point, but need not be
before it. It is read to the nearest number, which is infinity beyond the range. There is no exponent.
-/

namespace BodySpec.Binary64

open Text

/-- The digits before and after the point. -/
def pointParts? (s : List Char) : Option (List Nat × List Nat) :=
  match digits s with
  | (whole, '.' :: s) =>
    match digits s with
    | (d :: ds, []) => some (whole, d :: ds)
    | _ => none
  | (d :: ds, []) => some (d :: ds, [])
  | _ => none

/-- The sign, and the text without it. -/
def signPart (s : List Char) : Bool × List Char :=
  match s with
  | '-' :: s => (true, s)
  | '+' :: s => (false, s)
  | s => (false, s)

/-- The number that a plain decimal writes. -/
def ofPlain? (s : List Char) : Option Binary64 :=
  let (negative, s) := signPart s
  (pointParts? s).map fun (whole, fraction) =>
    round negative (decimalValue (whole ++ fraction)) (Nat.pow 10 fraction.length)

end BodySpec.Binary64
