import BodySpec.Run
import BodySpec.Builtin.Judgement

/-!
# What a judgement consults

The run of a judgement is made of the runs of the rules that it consults. A built-in validator puts each item of an
array to one rule or consults none (`Builtin.run_judge_cases`); a candid predicate puts its value to one rule or
consults none (`Predicate.Candid.run_cases`). What is consulted is always a rule among the arguments.
-/

namespace BodySpec

namespace Judgement

theorem run_forEach (check : Check) (args : List (Argument Check)) (vs : List Json) :
    (forEach 0 vs).run (.rule check :: args) = Run.all check vs := by
  induction vs with
  | nil => rfl
  | cons v vs ih =>
    rw [forEach, run, Run.all]
    show check v >>= _ = _
    congr 1
    funext holds
    cases holds with
    | true => exact ih
    | false => rfl

/-- The answer of a rule as a verdict is the run of the rule; what is no rule answers no. -/
theorem run_consult_cases (args : List (Argument Check)) (position : Nat) (v : Json) :
    (∃ check, Argument.rule check ∈ args ∧ (consult position v verdict).run args = check v) ∨
    (consult position v verdict).run args = pure false := by
  have run_eq : (consult position v verdict).run args =
      ((args[position]?.bind Argument.rule?).getD fun _ => pure false) v := by
    rw [run]
    exact bind_pure _
  rw [run_eq]
  cases ha : args[position]? with
  | none => exact .inr rfl
  | some a =>
    cases a with
    | value w => exact .inr rfl
    | rule check => exact .inl ⟨check, List.mem_of_getElem? ha, rfl⟩

end Judgement

/-- A built-in validator puts each item of an array to one rule, or it consults none. -/
theorem Builtin.run_judge_cases (b : Builtin) (args : List (Argument Check)) (v : Json) :
    (∃ check items, Argument.rule check ∈ args ∧
      (b.judge v (args.map Argument.erase)).run args = Run.all check items) ∨
    ∃ holds, (b.judge v (args.map Argument.erase)).run args = pure holds := by
  cases b with
  | every =>
    cases v with
    | array items =>
      cases args with
      | nil => exact .inr ⟨false, rfl⟩
      | cons a args =>
        cases a with
        | value w => exact .inr ⟨false, rfl⟩
        | rule check => exact .inl ⟨check, items, List.mem_cons_self, Judgement.run_forEach check args items⟩
    | _ => exact .inr ⟨false, rfl⟩
  | _ => exact .inr ⟨_, rfl⟩

/-- Whatever the value, the predicate consults no nested rule, or it asks one about the value and gives its answer. -/
def Predicate.Candid (p : Predicate) : Prop :=
  ∀ (v : Json) (args : List (Argument Unit)) (context : Context),
    (∃ holds, p.judge v args context = .verdict holds) ∨
    ∃ position, p.judge v args context = .consult position v .verdict

theorem Predicate.Candid.run_cases {p : Predicate} (hp : p.Candid) (args : List (Argument Check)) (context : Context)
    (v : Json) :
    (∃ check, Argument.rule check ∈ args ∧
      (p.judge v (args.map Argument.erase) context).run args = check v) ∨
    ∃ holds, (p.judge v (args.map Argument.erase) context).run args = pure holds := by
  rcases hp v (args.map Argument.erase) context with ⟨holds, hj⟩ | ⟨position, hj⟩
  · rw [hj]
    exact .inr ⟨holds, rfl⟩
  · rw [hj]
    exact (Judgement.run_consult_cases args position v).imp_right fun h => ⟨false, h⟩

end BodySpec
