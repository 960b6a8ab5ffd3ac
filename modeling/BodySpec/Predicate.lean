import BodySpec.Json.Text

/-!
# Predicates

A predicate judges a value. It may consult the nested rules among its arguments as often as it likes and use their
answers in any way: a `Judgement` is a verdict, or a question to a rule together with what to do with the answer. A
predicate sees of a nested rule only that it is one, so its judgement depends on nothing but the value, the plain
arguments, the context and the answers.
-/

namespace BodySpec

/-- An argument of a step: a plain value or a nested rule. -/
inductive Argument (ρ : Type) where
  | value (v : Json)
  | rule (r : ρ)

namespace Argument

variable {ρ σ : Type}

def map (f : ρ → σ) : Argument ρ → Argument σ
  | value v => value v
  | rule r => rule (f r)

/-- The argument as a predicate sees it. -/
def erase (a : Argument ρ) : Argument Unit := a.map fun _ => ()

def value? : Argument ρ → Option Json
  | value v => some v
  | rule _ => none

def rule? : Argument ρ → Option ρ
  | value _ => none
  | rule r => some r

def text : Argument ρ → String
  | value v => v.text
  | rule _ => "<rule>"

end Argument

/-- What a predicate knows besides the value: the body that is checked and the name of the field. -/
structure Context where
  body : Json
  field : String

/-- A verdict, or a question to the nested rule at a position of the argument list. -/
inductive Judgement where
  | verdict (holds : Bool)
  | consult (position : Nat) (value : Json) (next : Bool → Judgement)

namespace Judgement

/-- Asks the rule at a position about every value, up to the first that fails. -/
def forEach (position : Nat) : List Json → Judgement
  | [] => verdict true
  | v :: vs => consult position v fun holds => if holds then forEach position vs else verdict false

end Judgement

/-- How a predicate judges: by the value alone, or with arguments and context. -/
inductive Criterion where
  | onValue (holds : Json → Bool)
  | inContext (judge : Json → List (Argument Unit) → Context → Judgement)

/-- A predicate of the caller, with the label that notices call it by. -/
structure Predicate where
  criterion : Criterion
  label : String := "custom"

namespace Predicate

def ofValue (holds : Json → Bool) : Predicate := { criterion := .onValue holds }

def ofContext (judge : Json → List (Argument Unit) → Context → Judgement) : Predicate :=
  { criterion := .inContext judge }

def named (p : Predicate) (label : String) : Predicate := { p with label }

def judge (p : Predicate) (v : Json) (args : List (Argument Unit)) (context : Context) : Judgement :=
  match p.criterion with
  | .onValue holds => .verdict (holds v)
  | .inContext judge => judge v args context

end Predicate

end BodySpec
