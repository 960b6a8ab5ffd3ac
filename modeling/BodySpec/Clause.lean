import BodySpec.Fault
import BodySpec.Rule
import BodySpec.Specification.Basic

/-!
# Options and clauses

How a specification is compiled and who is told what its validator finds; and what the tokens of a declaration
contribute to its rule: a modifier or a step each. A name is looked up here, and the clauses of a declaration become its
rule, which has to have a step.
-/

namespace BodySpec

structure Options where
  /-- The keys of a body have to be exactly the declared fields. -/
  strict : Bool := false
  /-- How deep rules and specifications may be nested. -/
  maxDepth : Nat := 32
  observer : Option Observer := none

/-- Where a token stands: the field, and how many rules and specifications enclose it. -/
structure Site where
  field : String
  depth : Nat

/-- What a token contributes to its rule. -/
inductive Clause where
  | modifier (m : Modifier)
  | step (s : Step)

namespace Clause

def step? : Clause → Option Step
  | modifier _ => none
  | step s => some s

def isModifier (m : Modifier) : Clause → Bool
  | modifier n => m == n
  | step _ => false

/-- The clause of a name. A modifier takes no parameters; the arguments of a validator are asked for after its name is
found, and depend on whether it takes rules. -/
def ofName (field name : String) (bare : Bool) (arguments : Bool → Except Fault (List (Argument Check))) :
    Except Fault Clause :=
  match Modifier.ofName? name with
  | some m => if bare then .ok (modifier m) else .error (.unknownValidator field name)
  | none =>
    match Builtin.ofName? name with
    | some b => do
      let args ← arguments b.wantsRules
      return step { routine := .builtin b, args }
    | none => .error (.unknownValidator field name)

end Clause

namespace Rule

/-- The rule that the clauses of a declaration make; one without steps is at fault. -/
def ofClauses (field : String) (clauses : List Clause) : Except Fault Rule :=
  let steps := clauses.filterMap Clause.step?
  if steps.isEmpty then .error (.emptyRule field)
  else
    .ok {
      field, steps
      optional := clauses.any (Clause.isModifier .optional)
      optionalOrNull := clauses.any (Clause.isModifier .optionalOrNull) }

end Rule

namespace Site

/-- One level deeper, for the content of a parameter. -/
def enter {α : Type} (options : Options) (site : Site) (content : Site → Except Fault α) : Except Fault α :=
  if site.depth + 1 ≤ options.maxDepth then content { site with depth := site.depth + 1 }
  else .error (.nestingTooDeep site.field options.maxDepth)

/-- The argument of a nested rule with the clauses given. -/
def ruleArgument (options : Options) (site : Site) (clauses : Except Fault (List Clause)) :
    Except Fault (Argument Check) := do
  let rule ← Rule.ofClauses site.field (← clauses)
  return .rule (rule.toCheck options.observer)

end Site

end BodySpec
