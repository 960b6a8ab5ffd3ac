import BodySpec.Builtin.Judgement
import BodySpec.Run

/-!
# Rules

A rule says what the value of a field has to satisfy: steps, each a call of a validator or predicate with arguments, and
the modifiers that let the field be absent or null.
-/

namespace BodySpec

/-- What a step calls. -/
inductive Routine where
  | builtin (b : Builtin)
  | custom (p : Predicate)

structure Step where
  routine : Routine
  args : List (Argument Check)

namespace Step

/-- The name or label that notices call the step by. -/
def label (s : Step) : String :=
  match s.routine with
  | .builtin b => b.name
  | .custom p => p.label

def isBuiltin (s : Step) : Bool :=
  match s.routine with
  | .builtin _ => true
  | .custom _ => false

/-- The arguments as a predicate sees them. -/
def shownArgs (s : Step) : List (Argument Unit) := s.args.map Argument.erase

def check (s : Step) (v : Json) (context : Context) : Run Bool :=
  match s.routine with
  | .builtin b => (b.judge v s.shownArgs).run s.args
  | .custom p => do
    Run.tell (.call { predicate := p, value := v, args := s.shownArgs, context })
    (p.judge v s.shownArgs context).run s.args

end Step

/-- The steps of a field and its modifiers. -/
structure Rule where
  field : String
  steps : List Step
  optional : Bool
  optionalOrNull : Bool

namespace Rule

/-- One step; the observer is told of a failure. -/
def checkStep (r : Rule) (v body : Json) (observer : Option Observer) (s : Step) : Run Bool := do
  let holds ← s.check v { body, field := r.field }
  if holds then pure true
  else
    Run.notify observer (.stepFailed r.field s.label s.shownArgs v)
    pure false

/-- All steps, up to the first that fails. -/
def checkSteps (r : Rule) (v body : Json) (observer : Option Observer) : Run Bool :=
  Run.all (r.checkStep v body observer) r.steps

/-- Checks the value of the field, which is none if the field is absent. The modifiers come before the steps. -/
def checkValue (r : Rule) (v : Option Json) (body : Json) (observer : Option Observer) : Run Bool :=
  match v with
  | none => do
    Run.notify observer (if r.optional then .optionalSkipped r.field else .missingField r.field)
    pure r.optional
  | some v =>
    if r.optionalOrNull && v.isNull then do
      Run.notify observer (.nullSkipped r.field)
      pure true
    else r.checkSteps v body observer

/-- Checks the field of a body. -/
def check (r : Rule) (body : Json) (observer : Option Observer) : Run Bool :=
  r.checkValue (body.get? r.field) body observer

/-- The rule as a check of single values: each is its own body. -/
def toCheck (r : Rule) (observer : Option Observer) : Check := fun v => r.checkValue (some v) v observer

end Rule

end BodySpec
