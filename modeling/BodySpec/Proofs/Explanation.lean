import BodySpec.Proofs.Consultation
import BodySpec.Proofs.Invariant
import BodySpec.Proofs.Notices

/-!
# The notices explain the answer

An observer is told of a failure iff the answer is no (`Specification.notices_explain`), provided that predicates are
candid (`Predicate.Candid`): each gives a verdict of its own, or the answer of one nested rule about the same value.

The invariant `Run.Explained` says that of a run. Rules and validators have it if the checks among their arguments do
(`Check.inductive_explained`), so all compiled checks have it. A step has half of it: where a nested check has told of a
failure the step fails (`Step.result_of_reports`), but it may fail without a word, and then it is the rule that tells.
-/

namespace BodySpec

namespace Run

variable {α β : Type} {o : Observer}

/-- Whether the observer is told of a failure. -/
def reports (o : Observer) (x : Run α) : Bool := (x.noticesFor o).any Notice.isFailure

@[simp] theorem reports_pure (a : α) : (pure a : Run α).reports o = false := rfl

@[simp] theorem reports_bind (x : Run α) (f : α → Run β) :
    (x >>= f).reports o = (x.reports o || (f x.result).reports o) := by
  rw [reports, noticesFor_bind, List.any_append]
  rfl

@[simp] theorem reports_notify (n : Notice) : (notify (some o) n).reports o = n.isFailure := by
  rw [reports, noticesFor_notify, List.any_cons, List.any_nil, Bool.or_false]

@[simp] theorem reports_call (c : Call) : (tell (.call c)).reports o = false := rfl

theorem reports_iff {x : Run α} : x.reports o = true ↔ ∃ n ∈ x.noticesFor o, n.isFailure = true :=
  List.any_eq_true

/-- The observer is told of a failure iff the answer is no. -/
def Explained (o : Observer) (x : Run Bool) : Prop := x.reports o = !x.result

theorem Explained.result_of_reports {x : Run Bool} (h : x.Explained o) (hr : x.reports o = true) :
    x.result = false := by
  rw [Explained, hr, eq_comm, Bool.not_eq_true'] at h
  exact h

/-- The first failure ends the checks; those before it tell of none. -/
theorem explained_all {check : α → Run Bool} {xs : List α} (h : ∀ x ∈ xs, (check x).Explained o) :
    (all check xs).Explained o := by
  induction xs with
  | nil => rfl
  | cons x xs ih =>
    have first := h x List.mem_cons_self
    have others := ih fun y hy => h y (List.mem_cons_of_mem x hy)
    unfold Explained at first others ⊢
    rw [all, reports_bind, result_bind, first]
    cases (check x).result with
    | true => exact others
    | false => rfl

theorem explained_allThrough {check : α → Run Bool} {xs : List α} (h : ∀ x ∈ xs, (check x).Explained o) :
    (allThrough check xs).Explained o := by
  induction xs with
  | nil => rfl
  | cons x xs ih =>
    have first := h x List.mem_cons_self
    have others := ih fun y hy => h y (List.mem_cons_of_mem x hy)
    unfold Explained at first others ⊢
    rw [allThrough, reports_bind, reports_bind, reports_pure, result_bind, result_bind, result_pure, first, others,
      Bool.or_false, Bool.not_and]

end Run

/-- A check that says of each value what it tells the observer. -/
def Check.Explained (o : Observer) (check : Check) : Prop := ∀ v, (check v).Explained o

/-! ## Rules and validators -/

section Checks

variable {o : Observer}

/-- A nested check of a step that tells of a failure makes the step fail. -/
theorem Step.result_of_reports {s : Step} (h : s.Uses Predicate.Candid (Check.Explained o))
    {v : Json} {context : Context} (hr : (s.check v context).reports o = true) :
    (s.check v context).result = false := by
  obtain ⟨routine, args⟩ := s
  obtain ⟨candid, nested⟩ := h
  cases routine with
  | builtin b =>
    change ((b.judge v (args.map Argument.erase)).run args).reports o = true at hr
    change ((b.judge v (args.map Argument.erase)).run args).result = false
    rcases b.run_judge_cases args v with ⟨check, items, hc, run⟩ | ⟨holds, run⟩
    · rw [run] at hr ⊢
      have explained : (Run.all check items).Explained o := Run.explained_all fun w _ => nested check hc w
      exact explained.result_of_reports hr
    · rw [run] at hr
      cases hr
  | custom p =>
    change (Run.tell _ >>= fun _ => (p.judge v (args.map Argument.erase) context).run args).reports o = true at hr
    change ((p.judge v (args.map Argument.erase) context).run args).result = false
    rw [Run.reports_bind, Run.reports_call, Bool.false_or] at hr
    rcases (candid p rfl).run_cases args context v with ⟨check, hc, run⟩ | ⟨holds, run⟩
    · rw [run] at hr ⊢
      exact (nested check hc v).result_of_reports hr
    · rw [run] at hr
      cases hr

/-- The rule tells of a step that fails; a step that passes has told of no failure. -/
theorem Rule.explained_checkStep (r : Rule) {v body : Json} {s : Step}
    (h : s.Uses Predicate.Candid (Check.Explained o)) :
    (r.checkStep v body (some o) s).Explained o := by
  rw [Run.Explained, checkStep, Run.reports_bind, Run.result_bind]
  cases hs : (s.check v { body, field := r.field }).result with
  | true =>
    -- a nested failure would have made the step fail
    cases hr : (s.check v { body, field := r.field }).reports o with
    | false => rfl
    | true =>
      rw [Step.result_of_reports h hr] at hs
      cases hs
  | false =>
    rw [if_neg Bool.false_ne_true, Run.reports_bind, Run.reports_notify, Run.result_bind, Run.result_pure,
      Run.reports_pure, Bool.or_false]
    exact Bool.or_true _

theorem Rule.explained_checkValue {r : Rule} (h : r.Uses Predicate.Candid (Check.Explained o))
    (v : Option Json) (body : Json) : (r.checkValue v body (some o)).Explained o := by
  cases v with
  | none =>
    rw [Run.Explained, checkValue, Run.reports_bind, Run.reports_notify, Run.reports_pure, Bool.or_false,
      Run.result_bind, Run.result_pure]
    cases r.optional <;> rfl
  | some v =>
    rw [checkValue]
    cases r.optionalOrNull && v.isNull with
    | true =>
      rw [if_pos rfl, Run.Explained, Run.reports_bind, Run.reports_notify]
      rfl
    | false => exact Run.explained_all fun s hs => r.explained_checkStep (h s hs)

theorem Validator.explained_validate {V : Validator} (ho : V.observer = some o)
    (h : ∀ r ∈ V.rules, r.Uses Predicate.Candid (Check.Explained o)) (body : Json) :
    (V.validate body).Explained o := by
  have explained_notify : ∀ n : Notice, n.isFailure = true →
      (do Run.notify (some o) n; pure false : Run Bool).Explained o := by
    intro n hn
    rw [Run.Explained, Run.reports_bind, Run.reports_notify, hn]
    rfl
  cases body with
  | object members =>
    rw [validate, ho]
    cases V.strict && !V.keysMatch members with
    | true => exact explained_notify _ rfl
    | false =>
      rw [if_neg Bool.false_ne_true, checkFields, ho]
      exact Run.explained_allThrough fun r hr => Rule.explained_checkValue (h r hr) _ _
  | _ =>
    rw [validate, ho]
    · exact explained_notify _ rfl
    · intro _ h; cases h

theorem Check.inductive_explained {options : Options} (ho : options.observer = some o) :
    Check.Inductive options Predicate.Candid (Check.Explained o) where
  rule r hr v := by
    rw [ho]
    exact Rule.explained_checkValue hr (some v) v
  validator _ hrules body := Validator.explained_validate ho hrules body

end Checks

/-- **The notices explain the answer.** A validator that is observed answers no iff it tells of a failure, if predicates
are candid. It tells of each declared field in turn, of what makes its rule fail or exempt (`Rule.notices`), unless the
body is no object or its keys do not match. -/
theorem Specification.notices_explain {s : Specification} {options : Options} {V : Validator} {o : Observer}
    (h : s.compile options = .ok V) (ho : options.observer = some o)
    (hp : ∀ p ∈ s.predicates, p.Candid) (body : Json) :
    ((V.validate body).result = false ↔ ∃ n ∈ (V.validate body).noticesFor o, n.isFailure = true) ∧
    (V.validate body).noticesFor o = V.notices o body ∧ V.strict = options.strict ∧
    List.Forall₂ (fun f r => r.field = f.1 ∧ r.optional = f.2.carries .optional ∧
      r.optionalOrNull = f.2.carries .optionalOrNull ∧ r.steps.map Step.label = f.2.labels) s.fields V.rules := by
  have uses := (Check.inductive_explained ho).rules hp h
  obtain ⟨rules, hr, rfl⟩ := Specification.compile_eq_ok.mp h
  have explained := Validator.explained_validate (V := ⟨rules, options.strict, options.observer⟩) ho uses body
  refine ⟨?_, Validator.noticesFor_validate ho body, rfl, ?_⟩
  · rw [← Run.reports_iff, explained, Bool.not_eq_true']
  · refine (Specification.rulesAt_eq_ok.mp hr).imp fun f r hf => ?_
    have flags := Declaration.flags_of_rule hf
    exact ⟨Declaration.field_of_rule hf, flags.1, flags.2, Declaration.labels_of_rule hf⟩

/-- A predicate that answers as its first argument does. -/
def asFirst : Predicate := (Predicate.ofContext fun v _ _ => .consult 0 v .verdict).named "asFirst"

/-- People who are active or not, and a note that may be absent. -/
def roster : Specification :=
  .ofFields [
    ("people", .ofTokens [.everySpec (.ofFields [
      ("active", .ofTokens [.step (.predicate asFirst) [.rule (.ofTokens [.name "boolean"])]])])]),
    ("note", .ofTokens [.name "string", .name "optional"])]

/-- One who is active and one of whom that is not known. -/
def twoPeople : Json :=
  .object [("people", .array [.object [("active", .bool true)], .object [("active", .null)]])]

/-- The roster refuses the two, and tells of the failure at each level. -/
theorem roster_explains_twoPeople :
    ∃ V, roster.compile { observer := some (.listener "recorder") } = .ok V ∧
      (∀ p ∈ roster.predicates, p.Candid) ∧
      (V.validate twoPeople).noticesFor (.listener "recorder") = [
        .stepFailed "active" "boolean" [] .null,
        .stepFailed "active" "asFirst" [.rule ()] .null,
        .stepFailed "people" "every" [.rule ()]
          (.array [.object [("active", .bool true)], .object [("active", .null)]]),
        .optionalSkipped "note"] ∧
      (V.validate twoPeople).result = false := by
  have candid : ∀ p ∈ roster.predicates, p.Candid := by
    intro p hp
    cases List.mem_singleton.mp hp
    exact fun v args context => .inr ⟨0, rfl⟩
  refine ⟨_, rfl, candid, rfl, ?_⟩
  have compiled : roster.compile { observer := some (.listener "recorder") } = .ok _ := rfl
  exact (Specification.notices_explain compiled rfl candid twoPeople).1.mpr
    ⟨.stepFailed "active" "boolean" [] .null, List.mem_cons_self, rfl⟩

end BodySpec
