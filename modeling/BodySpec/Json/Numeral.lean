import BodySpec.Json.Basic
import BodySpec.Text.Digits

/-!
# JSON numerals

A numeral is a number as written: sign, whole digits, fraction and exponent. `Numeral.value?` reads it in this way.

* Without fraction and exponent it is an integer, if that lies in one of the 64-bit ranges and is not `-0`.
* Otherwise the digits are taken into a 64-bit significand as far as they fit. Whole digits that no longer fit count as
  zeros, fraction digits that no longer fit are dropped.
* The significand is then multiplied or divided by a power of ten in binary64 arithmetic, in steps of at most
  `10 ^ 308`. So the result may differ from the nearest number by a few roundings.
* A numeral whose product is out of range has no value; a quotient may vanish.
-/

namespace BodySpec

/-- A number as written. -/
structure Numeral where
  negative : Bool
  whole : List Nat
  fraction : List Nat
  /-- Whether the exponent is negative, and its digits. -/
  exponent : Option (Bool × List Nat)
  deriving DecidableEq

namespace Numeral

open Text

/-! ## Spelling -/

/-- The exponent part at the front of a text: none, or `e` or `E`, a sign if any, and digits. -/
def exponentPart? (s : List Char) : Option (Option (Bool × List Nat)) :=
  match s with
  | [] => some none
  | c :: s =>
    if c = 'e' ∨ c = 'E' then
      let (negative, s) :=
        match s with
        | '+' :: s => (false, s)
        | '-' :: s => (true, s)
        | s => (false, s)
      match digits s with
      | (d :: ds, []) => some (some (negative, d :: ds))
      | _ => none
    else none

/-- The fraction at the front of a text, which may be missing but has a digit after its point. -/
def fractionPart? (s : List Char) : Option (List Nat × List Char) :=
  match s with
  | '.' :: s =>
    match digits s with
    | ([], _) => none
    | (ds, s) => some (ds, s)
  | s => some ([], s)

/-- The numeral that a text spells. A whole part of several digits does not begin with zero. -/
def ofChars? (s : List Char) : Option Numeral :=
  let (negative, s) :=
    match s with
    | '-' :: s => (true, s)
    | s => (false, s)
  match digits s with
  | ([], _) => none
  | (0 :: _ :: _, _) => none
  | (whole, s) => do
    let (fraction, s) ← fractionPart? s
    let exponent ← exponentPart? s
    return { negative, whole, fraction, exponent }

/-! ## Value -/

/-- Takes digits into a significand as long as it fits in 64 bits; also gives the digits left. -/
def absorb (significand : Nat) : List Nat → Nat × List Nat
  | [] => (significand, [])
  | d :: ds =>
    if significand * 10 + d < Nat.pow 2 64 then absorb (significand * 10 + d) ds else (significand, d :: ds)

/-- Division of a significand below `2 ^ 64` by `10 ^ n`, in steps of at most `10 ^ 308`; two full steps leave zero. -/
def divideByPower (x : Binary64) (n : Nat) : Binary64 :=
  if n ≤ 308 then x / Binary64.powerOfTen n
  else if n ≤ 616 then x / Binary64.powerOfTen 308 / Binary64.powerOfTen (n - 308)
  else ⟨x.negative, 0⟩

/-- The number times `10 ^ e`, unless it is out of range. -/
def scale? (x : Binary64) (e : Int) : Option Binary64 :=
  if e < 0 then some (divideByPower x (-e).toNat)
  else if x.isZero then some x
  else if e ≤ 308 then
    let y := x * Binary64.powerOfTen e.toNat
    if y.isInfinite then none else some y
  else none

def applySign (negative : Bool) (x : Binary64) : Binary64 := if negative then -x else x

/-- The integer of a sign and a 64-bit magnitude; a zero with a sign and what is below `-2 ^ 63` are no integers. -/
def ofMagnitude (negative : Bool) (n : Nat) : Number :=
  if negative then
    if 0 < n ∧ n ≤ Nat.pow 2 63 then .int (-n) else .float (-Binary64.ofNat n)
  else .int n

def exponentValue : Option (Bool × List Nat) → Int
  | none => 0
  | some (negative, ds) => if negative then -decimalValue ds else decimalValue ds

/-- The number that a numeral writes. -/
def value? (n : Numeral) : Option Number :=
  let (high, dropped) := absorb 0 n.whole
  if dropped = [] ∧ n.fraction = [] ∧ n.exponent = none then some (ofMagnitude n.negative high)
  else
    let (significand, lost) := absorb high n.fraction
    let exponent := dropped.length - (n.fraction.length - lost.length : Nat) + exponentValue n.exponent
    (scale? (Binary64.ofNat significand) exponent).map fun x => .float (applySign n.negative x)

end Numeral

end BodySpec
