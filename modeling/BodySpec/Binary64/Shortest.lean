import BodySpec.Binary64.Basic

/-!
# The shortest decimal of a binary64 number

Of all decimals `c · 10 ^ k` that round to a given number, `shortest` takes one on the coarsest grid, that is with the
largest `k` and so with the fewest digits. Only the two neighbours of the number on a grid can qualify; of two that do,
the nearer is taken, and a tie goes to the even one. All comparisons are exact, in quarters of a unit, since the ends of
the interval that rounds to a number are multiples of a quarter.
-/

namespace BodySpec

/-- The decimal `significand · 10 ^ exponent`. -/
structure Decimal where
  significand : Nat
  exponent : Int

namespace Binary64

/-- The values that round to a number, in quarters of a unit. -/
structure Interval where
  lower : Nat
  upper : Nat
  /-- Whether the ends themselves belong to it. -/
  closed : Bool

/-- The values that round to `x`: half way to either neighbour; the ends round to `x` if its significand is even.
Below a power of two the neighbours are half as far apart. -/
def interval (x : Binary64) : Interval :=
  let s := spacing x.units
  let gap := Nat.pow 2 s
  let significand := x.units / gap
  { lower := 4 * x.units - (if significand = Nat.pow 2 52 ∧ 0 < s then gap else 2 * gap)
    upper := 4 * x.units + 2 * gap
    closed := significand % 2 = 0 }

/-- Whether `num / den` quarters lie in the interval. -/
def Interval.holds (i : Interval) (num den : Nat) : Bool :=
  if i.closed then i.lower * den ≤ num ∧ num ≤ i.upper * den else i.lower * den < num ∧ num < i.upper * den

/-- The distance of the points on the grid `10 ^ k`, as a quotient of quarters of a unit. -/
def gridStep (k : Int) : Nat × Nat :=
  if 0 ≤ k then (Nat.pow 10 k.toNat * 4 * unitsInOne, 1) else (4 * unitsInOne, Nat.pow 10 (-k).toNat)

/-- The point of the grid `10 ^ k` that rounds to `x` and is nearest to it. -/
def onGrid? (x : Binary64) (k : Int) : Option Nat :=
  let (num, den) := gridStep k
  let i := x.interval
  let below := 4 * x.units * den / num
  match i.holds (below * num) den, i.holds ((below + 1) * num) den with
  | true, true => some (roundQuotient (4 * x.units * den) num)
  | true, false => some below
  | false, true => some (below + 1)
  | false, false => none

/-- The first hit on the grids `10 ^ k`, `10 ^ (k - 1)`, …; after `tries` grids the last one is rounded to. -/
def searchGrids (x : Binary64) : Nat → Int → Decimal
  | 0, k => ⟨roundQuotient (4 * x.units * (gridStep k).2) (gridStep k).1, k⟩
  | tries + 1, k =>
    match x.onGrid? k with
    | some c => ⟨c, k⟩
    | none => searchGrids x tries (k - 1)

/-- A power of ten not below the number: `30103 / 100000` is just above the decimal logarithm of two. -/
def topGrid (x : Binary64) : Int := ((x.units.log2 : Int) - 1072) * 30103 / 100000 + 1

/-- The shortest decimal that rounds to a positive finite number. Seventeen digits always suffice, and the first grid
tried is at most three above the first digit. -/
def shortest (x : Binary64) : Decimal := searchGrids x 21 x.topGrid

end Binary64

end BodySpec
