/-!
# Faults of a specification

Why a specification cannot be compiled, with the field at fault. The field of a nested specification is qualified by
the fields around it, outermost first.
-/

namespace BodySpec

inductive Fault where
  /-- A name that is no validator, or a rule written as data that is none. -/
  | unknownValidator (field token : String)
  /-- A declaration without any step. -/
  | emptyRule (field : String)
  /-- Rules or specifications nested beyond the limit. -/
  | nestingTooDeep (field : String) (limit : Nat)
  deriving DecidableEq

namespace Fault

def field : Fault → String
  | unknownValidator f _ => f
  | emptyRule f => f
  | nestingTooDeep f _ => f

/-- The fault seen from the field that encloses its specification. -/
def within (parent : String) : Fault → Fault
  | unknownValidator f t => unknownValidator (parent ++ "." ++ f) t
  | emptyRule f => emptyRule (parent ++ "." ++ f)
  | nestingTooDeep f l => nestingTooDeep (parent ++ "." ++ f) l

def message : Fault → String
  | unknownValidator f t => "Unknown validator '" ++ t ++ "' for field '" ++ f ++ "'"
  | emptyRule f => "Field '" ++ f ++ "' declares modifiers but no validators"
  | nestingTooDeep f l => "Field '" ++ f ++ "' nests specifications deeper than " ++ toString l ++ " levels"

theorem field_within (parent : String) (e : Fault) : (e.within parent).field = parent ++ "." ++ e.field := by
  cases e <;> rfl

end Fault

end BodySpec
