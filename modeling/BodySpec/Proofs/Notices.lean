import BodySpec.Proofs.RuleTraces

/-!
# What an observer is told

The notices of a run are those of its parts in order. Through every field, an observer hears of each field in turn
(`Run.noticesFor_allThrough`); of a field it hears one notice if the field is absent or exempt, and otherwise all that
the steps have to tell up to the first that fails, and then of that failure (`Rule.noticesFor_checkValue`). What it
hears of a body is one notice, or what there is to tell of all fields (`Validator.noticesFor_validate`).
-/

namespace BodySpec

namespace Run

variable {α β : Type} (o : Observer)

@[simp] theorem noticesFor_pure (a : α) : (pure a : Run α).noticesFor o = [] := rfl

@[simp] theorem noticesFor_bind (x : Run α) (f : α → Run β) :
    (x >>= f).noticesFor o = x.noticesFor o ++ (f x.result).noticesFor o := by
  rw [noticesFor, trace_bind, List.filterMap_append]
  rfl

@[simp] theorem noticesFor_notify (n : Notice) : (notify (some o) n).noticesFor o = [n] := by
  simp [notify, tell, noticesFor, Entry.noticeFor?]

/-- Where every element is checked, the notices of all of them follow each other. -/
theorem noticesFor_allThrough (check : α → Run Bool) (xs : List α) :
    (allThrough check xs).noticesFor o = xs.flatMap fun x => (check x).noticesFor o := by
  rw [noticesFor, trace_allThrough, List.filterMap_flatMap]
  rfl

end Run

/-! ## Fields -/

namespace Rule

/-- What an observer is told while the steps of a rule are checked: all that happens in the steps up to and with the
first that fails, and then that it failed. -/
def stepNotices (o : Observer) (r : Rule) (v body : Json) (steps : List Step) : List Notice :=
  let failing := (steps.find? fun s => !r.passes v body s).toList
  ((steps.takeWhile (r.passes v body) ++ failing).flatMap fun s =>
    (s.check v { body, field := r.field }).noticesFor o) ++ failing.map (r.failure v)

/-- What an observer is told of a field with a value, or of its absence. -/
def notices (o : Observer) (r : Rule) (v : Option Json) (body : Json) : List Notice :=
  match v with
  | none => [if r.optional then .optionalSkipped r.field else .missingField r.field]
  | some v => if r.optionalOrNull && v.isNull then [.nullSkipped r.field] else r.stepNotices o v body r.steps

theorem noticesFor_checkValue (r : Rule) (o : Observer) (v : Option Json) (body : Json) :
    (r.checkValue v body (some o)).noticesFor o = r.notices o v body := by
  rw [noticesFor_checkValue_eq, if_pos rfl]
  cases v with
  | none => rfl
  | some v =>
    rw [stepTrace, taken, ownNotice?, notices]
    cases r.optionalOrNull && v.isNull with
    | true => rfl
    | false =>
      rw [if_neg Bool.false_ne_true, if_neg Bool.false_ne_true, if_neg Bool.false_ne_true, throughFailing_eq,
        List.filterMap_flatMap, Option.toList_map, stepNotices]
      rfl

end Rule

/-! ## Bodies -/

namespace Validator

/-- What an observer is told of a body: that it is no object, that its keys do not match, or what there is to tell of
each declared field in turn. -/
def notices (o : Observer) (V : Validator) (body : Json) : List Notice :=
  match body with
  | .object members =>
    if V.strict && !V.keysMatch members then [.keyMismatch (V.unexpected members) (V.missing members)]
    else V.rules.flatMap fun r => r.notices o (body.get? r.field) body
  | body => [.notAnObject body]

theorem noticesFor_validate {V : Validator} {o : Observer} (ho : V.observer = some o) (body : Json) :
    (V.validate body).noticesFor o = V.notices o body := by
  cases body with
  | object members =>
    rw [validate, notices, ho]
    cases V.strict && !V.keysMatch members with
    | true => exact Run.noticesFor_notify o _
    | false =>
      rw [if_neg Bool.false_ne_true, if_neg Bool.false_ne_true, checkFields, ho]
      show (Run.allThrough (fun r => r.check (.object members) (some o)) V.rules).noticesFor o = _
      rw [Run.noticesFor_allThrough]
      simp only [Rule.check, Rule.noticesFor_checkValue]
  | _ =>
    rw [validate, notices, ho]
    · exact Run.noticesFor_notify o _
    · intro _ h; cases h
    · intro _ h; cases h

end Validator

end BodySpec
