import BodySpec.Proofs.Meaning
import BodySpec.Validator

/-!
# The answers of checks

The result of a check as a function of the results of the checks that it consults. A step answers what its routine
says of its arguments (`Step.result_check`), a rule allows an absence, a null or a value all of whose steps hold
(`Rule.result_checkValue`), and a validator accepts an object whose keys match, if they have to, and all of whose fields
are allowed (`Validator.result_validate`). No observer occurs on the right sides.
-/

namespace BodySpec

namespace Argument

/-- The argument with a nested rule as the set of values that it accepts. -/
def results (a : Argument Check) : Argument (Json → Bool) := a.map fun check v => (check v).result

@[simp] theorem results_value (v : Json) : (value v : Argument Check).results = value v := rfl

@[simp] theorem results_rule (check : Check) : (rule check).results = rule fun v => (check v).result := rfl

@[simp] theorem erase_results (a : Argument Check) : a.results.erase = a.erase := by
  cases a <;> rfl

theorem map_erase_results (args : List (Argument Check)) :
    (args.map results).map erase = args.map erase := by
  simp

end Argument

/-! ## Judgements -/

theorem Judgement.answer_results (args : List (Argument Check)) (position : Nat) (v : Json) :
    answer (args.map Argument.results) position v =
      ((args[position]?.bind Argument.rule?).getD (fun _ => pure false) v).result := by
  unfold answer
  rw [List.getElem?_map]
  cases args[position]? with
  | none => rfl
  | some a => cases a <;> rfl

theorem Judgement.result_run (args : List (Argument Check)) (j : Judgement) :
    (j.run args).result = j.decide (args.map Argument.results) := by
  induction j with
  | verdict holds => rfl
  | consult position v next ih =>
    rw [Judgement.run, Judgement.decide, answer_results, Run.result_bind]
    exact ih _

theorem Judgement.decide_forEach {satisfies : Json → Bool} (args : List (Argument (Json → Bool))) (vs : List Json) :
    (forEach 0 vs).decide (.rule satisfies :: args) = vs.all satisfies := by
  induction vs with
  | nil => rfl
  | cons v vs ih =>
    rw [List.all_cons, forEach, Judgement.decide]
    show (if satisfies v then forEach 0 vs else verdict false).decide _ = _
    cases satisfies v with
    | true => exact ih
    | false => rfl

theorem Builtin.decide_judge (b : Builtin) (args : List (Argument (Json → Bool))) (v : Json) :
    (b.judge v (args.map Argument.erase)).decide args = b.passes args v := by
  cases b with
  | every =>
    cases v with
    | array items =>
      cases args with
      | nil => rfl
      | cons a args =>
        cases a with
        | value w => rfl
        | rule satisfies => exact Judgement.decide_forEach args items
    | _ => rfl
  | _ => rfl

/-! ## Steps and rules -/

/-- What a routine says of a value, given its arguments. -/
def Routine.passes (r : Routine) (args : List (Argument (Json → Bool))) (context : Context) (v : Json) : Bool :=
  match r with
  | .builtin b => b.passes args v
  | .custom p => p.holds args context v

theorem Step.result_check (s : Step) (v : Json) (context : Context) :
    (s.check v context).result = s.routine.passes (s.args.map Argument.results) context v := by
  obtain ⟨routine, args⟩ := s
  cases routine with
  | builtin b =>
    show ((b.judge v (args.map Argument.erase)).run args).result = b.passes _ v
    rw [Judgement.result_run, ← Builtin.decide_judge, Argument.map_erase_results]
  | custom p =>
    show ((p.judge v (args.map Argument.erase) context).run args).result = p.holds _ context v
    rw [Judgement.result_run, Predicate.holds, Argument.map_erase_results]

namespace Rule

theorem result_checkStep (r : Rule) (v body : Json) (o : Option Observer) (s : Step) :
    (r.checkStep v body o s).result = (s.check v { body, field := r.field }).result := by
  unfold checkStep
  rw [Run.result_bind]
  cases (s.check v { body, field := r.field }).result <;> rfl

theorem result_checkSteps (r : Rule) (v body : Json) (o : Option Observer) :
    (r.checkSteps v body o).result = r.steps.all fun s => (s.check v { body, field := r.field }).result := by
  rw [checkSteps, Run.result_all]
  simp only [result_checkStep]

/-- The answer of a rule does not depend on who is told of it. -/
theorem result_checkValue (r : Rule) (v : Option Json) (body : Json) (o : Option Observer) :
    (r.checkValue v body o).result =
      match v with
      | none => r.optional
      | some w => (w.isNull && r.optionalOrNull) ||
          r.steps.all fun s => (s.check w { body, field := r.field }).result := by
  cases v with
  | none => rfl
  | some w =>
    simp only [checkValue]
    cases hn : r.optionalOrNull && w.isNull with
    | true => rw [Bool.and_comm, hn]; rfl
    | false => rw [Bool.and_comm, hn]; exact result_checkSteps r w body o

theorem result_toCheck (r : Rule) (o : Option Observer) (v : Json) :
    (r.toCheck o v).result = ((v.isNull && r.optionalOrNull) ||
      r.steps.all fun s => (s.check v { body := v, field := r.field }).result) :=
  result_checkValue r (some v) v o

end Rule

/-! ## Validators -/

namespace Validator

theorem result_checkFields (V : Validator) (body : Json) :
    (V.checkFields body).result = V.rules.all fun r => (r.check body none).result := by
  unfold checkFields
  cases V.observer with
  | none => exact Run.result_all _ _
  | some o =>
    simp only [Run.result_allThrough, Rule.check, Rule.result_checkValue]

theorem result_validate (V : Validator) (members : Json.Members) :
    (V.validate (.object members)).result =
      ((!V.strict || V.keysMatch members) && V.rules.all fun r => (r.check (.object members) none).result) := by
  simp only [validate]
  cases V.strict <;> cases V.keysMatch members <;> first | rfl | exact result_checkFields V _

end Validator

end BodySpec
