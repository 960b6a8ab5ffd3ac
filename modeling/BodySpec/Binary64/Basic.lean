/-!
# Binary64 numbers

A binary64 number is a sign and a number of units of `2 ^ (-1074)`, the least positive value of the format. Infinity
takes the first number of units beyond the finite ones. Order and equality are those of the signed numbers of units,
so that the two zeros are equal. Every operation is one rounding of an exact quotient: to the nearest number of the
format, and a tie goes to the even one. There is no not-a-number, because no operation here produces one. Powers are
written `Nat.pow`, which means the same whatever number classes are in scope.
-/

namespace BodySpec

/-- A sign and a number of units of `2 ^ (-1074)`. -/
structure Binary64 where
  negative : Bool
  units : Nat

namespace Binary64

/-- The units in one. -/
def unitsInOne : Nat := Nat.pow 2 1074

/-- The units of infinity: those of `2 ^ 1024`, the least power of two out of range. -/
def infiniteUnits : Nat := Nat.pow 2 2098

def zero : Binary64 := ⟨false, 0⟩

def infinity : Binary64 := ⟨false, infiniteUnits⟩

def negInfinity : Binary64 := ⟨true, infiniteUnits⟩

/-- The signed number of units, by which numbers are compared. -/
def signedUnits (x : Binary64) : Int := if x.negative then -x.units else x.units

instance : LE Binary64 := ⟨fun x y => x.signedUnits ≤ y.signedUnits⟩

instance (x y : Binary64) : Decidable (x ≤ y) := inferInstanceAs (Decidable (x.signedUnits ≤ y.signedUnits))

instance : BEq Binary64 := ⟨fun x y => x.signedUnits == y.signedUnits⟩

instance : Neg Binary64 := ⟨fun x => ⟨!x.negative, x.units⟩⟩

def isZero (x : Binary64) : Bool := x.units == 0

def isInfinite (x : Binary64) : Bool := x.units == infiniteUnits

/-! ## Rounding -/

/-- The quotient rounded to the nearest integer, a tie going to the even one. -/
def roundQuotient (num den : Nat) : Nat :=
  let q := num / den
  let r := num % den
  if 2 * r < den ∨ (2 * r = den ∧ q % 2 = 0) then q else q + 1

/-- The binary logarithm of the distance between neighbours around a number of units: 53 significant bits are kept. -/
def spacing (units : Nat) : Nat := if units < Nat.pow 2 53 then 0 else units.log2 - 52

/-- The number nearest to `num / den`; beyond the range it is infinity. -/
def round (negative : Bool) (num den : Nat) : Binary64 :=
  let gap := Nat.pow 2 (spacing (num * unitsInOne / den))
  ⟨negative, min (roundQuotient (num * unitsInOne) (den * gap) * gap) infiniteUnits⟩

def ofNat (n : Nat) : Binary64 := round false n 1

def ofInt (n : Int) : Binary64 := round (n < 0) n.natAbs 1

/-- The number nearest to `10 ^ n`. -/
def powerOfTen (n : Nat) : Binary64 := ofNat (Nat.pow 10 n)

/-- The product of finite numbers. -/
instance : Mul Binary64 :=
  ⟨fun x y => round (x.negative != y.negative) (x.units * y.units) (unitsInOne * unitsInOne)⟩

/-- The quotient of finite numbers, for a divisor other than zero. -/
instance : Div Binary64 := ⟨fun x y => round (x.negative != y.negative) x.units y.units⟩

theorem le_def {x y : Binary64} : x ≤ y ↔ x.signedUnits ≤ y.signedUnits := Iff.rfl

theorem le_refl (x : Binary64) : x ≤ x := Int.le_refl _

end Binary64

end BodySpec
