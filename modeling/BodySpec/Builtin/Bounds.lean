import BodySpec.Predicate

/-!
# Bounds among arguments

A bound is a number, compared in binary64. A bound that is absent or null does not bind, and one of any other kind is no
bound: nothing lies within it.
-/

namespace BodySpec.Builtin

/-- A bound: the default for none or null, no bound at all for what is not a number. -/
def boundOf? (v : Option Json) (default : Binary64) : Option Binary64 :=
  match v with
  | none => some default
  | some .null => some default
  | some (.number n) => some n.toBinary64
  | some _ => none

/-- The bound at a position of the arguments. -/
def bound? (args : List (Argument Unit)) (position : Nat) (default : Binary64) : Option Binary64 :=
  match args[position]? with
  | none => some default
  | some (.value v) => boundOf? (some v) default
  | some (.rule _) => none

/-- Whether the number lies between the bounds, if there are two. -/
def within (x : Binary64) (min max : Option Binary64) : Bool :=
  match min, max with
  | some min, some max => min ≤ x ∧ x ≤ max
  | _, _ => false

/-- The bounds of `isBetween`: the items of a single array, or the arguments themselves, which must be plain. -/
def bounds? (args : List (Argument Unit)) : Option (List Json) :=
  match args with
  | [.value (.array items)] => some items
  | args => args.mapM Argument.value?

end BodySpec.Builtin
