import BodySpec.Proofs.Answers

/-!
# The trace of a rule

A rule checks its steps up to the first that fails (`throughFailing`). What they leave in the trace is the same whoever
observes the rule, and the rule itself leaves one notice at most, behind it: that the field is absent or exempt, or
which step has failed (`Rule.trace_checkValue`). What an observer is told and which predicates are called is read off
that.
-/

namespace BodySpec

/-! ## Up to the first failure -/

/-- The elements up to and with the first that fails the test. -/
def throughFailing {α : Type} (holds : α → Bool) : List α → List α
  | [] => []
  | x :: xs => x :: if holds x then throughFailing holds xs else []

theorem throughFailing_eq {α : Type} (holds : α → Bool) (xs : List α) :
    throughFailing holds xs = xs.takeWhile holds ++ (xs.find? fun x => !holds x).toList := by
  induction xs with
  | nil => rfl
  | cons x xs ih => cases h : holds x <;> simp [throughFailing, h, ih]

theorem mem_of_mem_throughFailing {α : Type} {holds : α → Bool} {x : α} {xs : List α}
    (h : x ∈ throughFailing holds xs) : x ∈ xs := by
  rw [throughFailing_eq] at h
  rcases List.mem_append.mp h with h | h
  · exact (List.takeWhile_sublist holds).subset h
  · exact List.mem_of_find?_eq_some (Option.mem_toList.mp h)

theorem flatMap_throughFailing_cons {α β : Type} (holds : α → Bool) (f : α → List β) (x : α) (xs : List α) :
    (throughFailing holds (x :: xs)).flatMap f =
      f x ++ if holds x then (throughFailing holds xs).flatMap f else [] := by
  cases h : holds x <;> simp [throughFailing, h]

theorem throughFailing_of_all {α : Type} {holds : α → Bool} {xs : List α} (h : ∀ x ∈ xs, holds x = true) :
    throughFailing holds xs = xs := by
  induction xs with
  | nil => rfl
  | cons x xs ih =>
    rw [throughFailing, h x List.mem_cons_self, if_pos rfl, ih fun y hy => h y (List.mem_cons_of_mem x hy)]

/-- What is added for a failure comes last, for nothing follows the first one. -/
theorem flatMap_throughFailing_append {α β : Type} (holds : α → Bool) (f g : α → List β) (xs : List α) :
    ((throughFailing holds xs).flatMap fun x => f x ++ if holds x then [] else g x) =
      (throughFailing holds xs).flatMap f ++ (xs.find? fun x => !holds x).elim [] g := by
  induction xs with
  | nil => rfl
  | cons x xs ih =>
    rw [flatMap_throughFailing_cons, flatMap_throughFailing_cons, ih]
    cases h : holds x <;> simp [h]

namespace Run

variable {α : Type}

@[simp] theorem trace_notify (observer : Option Observer) (n : Notice) :
    (notify observer n).trace = (observer.map (.notice · n)).toList := by
  cases observer <;> rfl

/-- The checks up to the first that fails are the ones that leave something. -/
theorem trace_all (check : α → Run Bool) (xs : List α) :
    (all check xs).trace = (throughFailing (fun x => (check x).result) xs).flatMap fun x => (check x).trace := by
  induction xs with
  | nil => rfl
  | cons x xs ih =>
    rw [all, trace_bind, flatMap_throughFailing_cons, ← ih]
    cases (check x).result <;> rfl

theorem trace_allThrough (check : α → Run Bool) (xs : List α) :
    (allThrough check xs).trace = xs.flatMap fun x => (check x).trace := by
  induction xs with
  | nil => rfl
  | cons x xs ih => rw [allThrough, trace_bind, trace_bind, trace_pure, List.append_nil, ih, List.flatMap_cons]

end Run

/-! ## Rules -/

namespace Rule

/-- Whether a step of the rule holds of a value. -/
def passes (r : Rule) (v body : Json) (s : Step) : Bool := (s.check v { body, field := r.field }).result

/-- The notice of a step that fails. -/
def failure (r : Rule) (v : Json) (s : Step) : Notice := .stepFailed r.field s.label s.shownArgs v

/-- The steps that are taken for a value: those up to and with the first that fails, and none if the value is exempt. -/
def taken (r : Rule) (v body : Json) : List Step :=
  if r.optionalOrNull && v.isNull then [] else throughFailing (r.passes v body) r.steps

/-- What the steps leave that are taken for the value of the field. -/
def stepTrace (r : Rule) (v : Option Json) (body : Json) : List Entry :=
  match v with
  | none => []
  | some v => (r.taken v body).flatMap fun s => (s.check v { body, field := r.field }).trace

/-- What the rule itself tells its observer: that the field is absent or exempt, or which step is
the first that fails. -/
def ownNotice? (r : Rule) (v : Option Json) (body : Json) : Option Notice :=
  match v with
  | none => some (if r.optional then .optionalSkipped r.field else .missingField r.field)
  | some v =>
    if r.optionalOrNull && v.isNull then some (.nullSkipped r.field)
    else (r.steps.find? fun s => !r.passes v body s).map (r.failure v)

variable (r : Rule) (o : Option Observer)

theorem trace_checkStep (v body : Json) (s : Step) :
    (r.checkStep v body o s).trace = (s.check v { body, field := r.field }).trace ++
      if r.passes v body s then [] else (Run.notify o (r.failure v s)).trace := by
  rw [checkStep, Run.trace_bind, passes]
  cases (s.check v { body, field := r.field }).result with
  | true => rfl
  | false =>
    rw [if_neg Bool.false_ne_true, if_neg Bool.false_ne_true, Run.trace_bind, Run.trace_pure, List.append_nil, failure]

theorem trace_checkSteps (v body : Json) :
    (r.checkSteps v body o).trace =
      ((throughFailing (r.passes v body) r.steps).flatMap fun s => (s.check v { body, field := r.field }).trace) ++
        (r.steps.find? fun s => !r.passes v body s).elim [] fun s => (Run.notify o (r.failure v s)).trace := by
  rw [checkSteps, Run.trace_all]
  simp only [result_checkStep, trace_checkStep]
  exact flatMap_throughFailing_append (r.passes v body) _ _ r.steps

/-- A rule leaves what its steps leave, and then the notice of its own if there is someone to tell. -/
theorem trace_checkValue (v : Option Json) (body : Json) :
    (r.checkValue v body o).trace =
      r.stepTrace v body ++ (r.ownNotice? v body).elim [] fun n => (Run.notify o n).trace := by
  cases v with
  | none =>
    rw [checkValue, Run.trace_bind, Run.trace_pure, List.append_nil, stepTrace, ownNotice?, Option.elim_some,
      List.nil_append]
  | some v =>
    rw [checkValue, stepTrace, taken, ownNotice?]
    cases r.optionalOrNull && v.isNull with
    | true => exact List.append_nil _
    | false =>
      rw [if_neg Bool.false_ne_true, if_neg Bool.false_ne_true, if_neg Bool.false_ne_true, trace_checkSteps,
        Option.elim_map]
      rfl

/-- An observer is told what the steps leave for it, and then the notice of the rule if it is the
one that observes it. -/
theorem noticesFor_checkValue_eq (v : Option Json) (body : Json) (a : Observer) :
    (r.checkValue v body o).noticesFor a = (r.stepTrace v body).filterMap (Entry.noticeFor? a) ++
      if o = some a then (r.ownNotice? v body).toList else [] := by
  rw [Run.noticesFor, trace_checkValue, List.filterMap_append]
  congr 1
  cases r.ownNotice? v body with
  | none => split <;> rfl
  | some n =>
    rw [Option.elim_some, Run.trace_notify]
    cases o with
    | none => rfl
    | some b =>
      by_cases same : b = a
      · simp [same, Entry.noticeFor?]
      · simp [same, Entry.noticeFor?]

end Rule

end BodySpec
