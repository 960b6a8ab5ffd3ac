import BodySpec.Proofs.Observation
import BodySpec.Proofs.Traces

/-!
# Two observers of one rule

A rule of a validator has two observers at most. One is that of the compilation, which all nested rules and
specifications tell what they find; the other is given when the rule is checked. What the steps leave is the same
whoever that other one is, and it is told by the rule itself, once at most and after everything else
(`Rule.trace_checkValue`). All that is told within the steps is for the observer of the compilation, which is a property
of all entries of a trace (`Check.inductive_leaves`). So neither is told what is meant for the other, and none of them
changes an answer (`Specification.rules_route`).
-/

namespace BodySpec

/-- The field that a notice is about. A notice about a body as a whole is about no field. -/
def Notice.field? : Notice → Option String
  | optionalSkipped field => some field
  | nullSkipped field => some field
  | missingField field => some field
  | stepFailed field _ _ _ => some field
  | _ => none

/-! ## The routes of a rule -/

namespace Rule

/-- A rule with steps tells nothing of its own iff there is a value for which all of them are taken and hold. -/
theorem ownNotice?_eq_none_iff {r : Rule} (h : r.steps ≠ []) {v : Option Json} {body : Json} :
    r.ownNotice? v body = none ↔
      ∃ w, v = some w ∧ r.taken w body = r.steps ∧ ∀ s ∈ r.steps, r.passes w body s = true := by
  cases v with
  | none => simp [ownNotice?]
  | some w =>
    cases exempt : r.optionalOrNull && w.isNull with
    | true =>
      have told : r.ownNotice? (some w) body = some (.nullSkipped r.field) := if_pos exempt
      have none : r.taken w body = [] := if_pos exempt
      refine iff_of_false (by rw [told]; exact Option.some_ne_none _) ?_
      rintro ⟨_, ⟨⟩, all, _⟩
      exact h (all.symm.trans none)
    | false =>
      have told : r.ownNotice? (some w) body = (r.steps.find? fun s => !r.passes w body s).map (r.failure w) :=
        if_neg (by rw [exempt]; exact Bool.false_ne_true)
      have through : r.taken w body = throughFailing (r.passes w body) r.steps :=
        if_neg (by rw [exempt]; exact Bool.false_ne_true)
      rw [told, Option.map_eq_none_iff, List.find?_eq_none]
      constructor
      · intro hold
        have all : ∀ s ∈ r.steps, r.passes w body s = true := fun s hs => by simpa using hold s hs
        exact ⟨w, rfl, through.trans (throughFailing_of_all all), all⟩
      · rintro ⟨_, ⟨⟩, _, all⟩ s hs
        simp [all s hs]

theorem field?_of_ownNotice? {r : Rule} {v : Option Json} {body : Json} {n : Notice}
    (h : r.ownNotice? v body = some n) :
    n.field? = some r.field := by
  cases v with
  | none =>
    cases h
    cases r.optional <;> rfl
  | some w =>
    rw [ownNotice?] at h
    split at h
    · cases h
      rfl
    · obtain ⟨s, _, rfl⟩ := Option.map_eq_some_iff.mp h
      rfl

/-- How a rule compiled for an observer, or for none, deals with the value of its field when it
has an observer itself. -/
structure Routes (compiled : Option Observer) (r : Rule) (v : Option Json) (body : Json) : Prop where
  /-- The steps leave the same whoever observes the rule, and what the rule itself tells comes last. -/
  trace : ∀ o, (r.checkValue v body o).trace =
    r.stepTrace v body ++ (r.ownNotice? v body).elim [] fun n => (Run.notify o n).trace
  /-- All that is told within the steps is told to the observer of the compilation. -/
  inner : ∀ o n, Entry.notice o n ∈ r.stepTrace v body → compiled = some o
  /-- Who does not observe the rule is told the same whoever does. -/
  others : ∀ o a, o ≠ some a → (r.checkValue v body o).noticesFor a = (r.checkValue v body none).noticesFor a
  /-- Who observes the rule and not the compilation is told what the rule itself tells. -/
  outer : ∀ o, compiled ≠ some o → (r.checkValue v body (some o)).noticesFor o = (r.ownNotice? v body).toList
  /-- The rule tells of its own field. -/
  field : ∀ n, r.ownNotice? v body = some n → n.field? = some r.field
  /-- It tells nothing iff all steps are taken and hold. -/
  quiet : r.ownNotice? v body = none ↔
    ∃ w, v = some w ∧ r.taken w body = r.steps ∧ ∀ s ∈ r.steps, r.passes w body s = true
  /-- Without any observer nothing is told. -/
  silent : compiled = none → ∀ o n, Entry.notice o n ∉ (r.checkValue v body none).trace

theorem mem_of_mem_taken {r : Rule} {v body : Json} {s : Step} (h : s ∈ r.taken v body) : s ∈ r.steps := by
  rw [taken] at h
  split at h
  · cases h
  · exact mem_of_mem_throughFailing h

end Rule

/-- A notice is for the observer of the compilation; other entries are for nobody. -/
def Entry.IsInner (compiled : Option Observer) (e : Entry) : Prop := ∀ o n, e = .notice o n → compiled = some o

/-- So it is with all that compiled checks leave. -/
theorem Entry.covers_isInner (compiled : Option Observer) :
    Entry.Covers compiled (fun _ => True) (Entry.IsInner compiled) where
  call _ _ _ _ he := by cases he
  notice _ _ ho _ _ _ he := by cases he; exact ho

theorem Rule.isInner_of_mem_stepTrace {compiled : Option Observer} {r : Rule}
    (h : r.Uses (fun _ => True) (Check.Leaves (Entry.IsInner compiled))) {v : Option Json} {body : Json} {e : Entry}
    (he : e ∈ r.stepTrace v body) : e.IsInner compiled := by
  cases v with
  | none => cases he
  | some w =>
    obtain ⟨s, hs, he⟩ := List.mem_flatMap.mp he
    exact Step.leaves_check (Entry.covers_isInner compiled) (h s (mem_of_mem_taken hs)) w _ e he

theorem Rule.routes_of_uses {compiled : Option Observer} {r : Rule}
    (h : r.Uses (fun _ => True) (Check.Leaves (Entry.IsInner compiled))) (hs : r.steps ≠ []) (v : Option Json)
    (body : Json) : r.Routes compiled v body where
  trace o := r.trace_checkValue o v body
  inner o n hn := Rule.isInner_of_mem_stepTrace h hn o n rfl
  others o a ho := by
    rw [noticesFor_checkValue_eq, noticesFor_checkValue_eq, if_neg ho, if_neg (Option.some_ne_none a).symm]
  outer o ho := by
    have unheard : (r.stepTrace v body).filterMap (Entry.noticeFor? o) = [] := by
      refine List.filterMap_eq_nil_iff.mpr fun e he => ?_
      have inner := Rule.isInner_of_mem_stepTrace h he
      cases e with
      | notice o' n =>
        refine if_neg fun same => ho ?_
        rw [← same]
        exact inner o' n rfl
      | call c => rfl
      | record rec => rfl
    rw [noticesFor_checkValue_eq, unheard, if_pos rfl, List.nil_append]
  field n hn := field?_of_ownNotice? hn
  quiet := ownNotice?_eq_none_iff hs
  silent unobserved o n hn := by
    have steps : (r.checkValue v body none).trace = r.stepTrace v body := by
      rw [trace_checkValue]
      cases r.ownNotice? v body <;> exact List.append_nil _
    rw [steps] at hn
    have told := Rule.isInner_of_mem_stepTrace h hn o n rfl
    rw [unobserved] at told
    cases told

/-! ## Rules of a validator -/

theorem Declaration.steps_ne_nil_of_rule {options : Options} {site : Site} {d : Declaration} {r : Rule}
    (h : d.rule options site = .ok r) : r.steps ≠ [] := by
  obtain ⟨_, _, hr⟩ := Declaration.rule_eq_ok.mp h
  obtain ⟨nonempty, rfl⟩ := Rule.ofClauses_eq_ok.mp hr
  exact nonempty

/-- Lists that agree with one list element by element agree with each other. -/
theorem forall₂_of_common {α β γ : Type} {R : α → β → Prop} {S : α → γ → Prop} {T : β → γ → Prop}
    (h : ∀ x y z, R x y → S x z → T y z) {xs : List α} {ys : List β} {zs : List γ}
    (hy : List.Forall₂ R xs ys)
    (hz : List.Forall₂ S xs zs) : List.Forall₂ T ys zs := by
  induction hy generalizing zs with
  | nil =>
    cases hz
    exact .nil
  | cons hr _ ih =>
    cases hz with
    | cons hs hzs => exact .cons (h _ _ _ hr hs) (ih hzs)

namespace Specification

variable {s : Specification} {options : Options} {V : Validator}

/-- The rules answer what the declarations allow, and no observer occurs there. -/
theorem results_of_compile (h : s.compile options = .ok V) :
    List.Forall₂ (fun f r => r.field = f.1 ∧ ∀ (v : Option Json) (body : Json) (o : Option Observer),
      (r.checkValue v body o).result = f.2.allows { body, field := f.1 } v) s.fields V.rules := by
  obtain ⟨rules, hr, rfl⟩ := compile_eq_ok.mp h
  refine (rulesAt_eq_ok.mp hr).imp fun f r hf => ⟨Declaration.field_of_rule hf, ?_⟩
  exact (preserved_cases options).declaration f.2 _ r hf

/-- What compiles for one observer compiles for any. -/
theorem exists_compile_observer (h : s.compile options = .ok V) (o : Option Observer) :
    ∃ W, s.compile { options with observer := o } = .ok W := by
  have same : Fault.of? (s.compile options) = Fault.of? (s.compile { options with observer := o }) :=
    of?_compile_congr s rfl
  rw [h, Fault.of?_ok] at same
  exact Fault.of?_eq_none.mp same.symm

theorem steps_ne_nil_of_compile (h : s.compile options = .ok V) : ∀ r ∈ V.rules, r.steps ≠ [] := by
  obtain ⟨rules, hr, rfl⟩ := compile_eq_ok.mp h
  intro r hmem
  obtain ⟨f, _, hf⟩ := mem_of_mapM (mapM_eq_ok.mpr (rulesAt_eq_ok.mp hr)) r hmem
  exact Declaration.steps_ne_nil_of_rule hf

/-- **Two observers of one rule do not mix.** Whoever observes the compilation and whoever observes the rule, the
answers are the same. What is told in nested rules and specifications is for the observer of the compilation, and is the
same whoever observes the rule; the observer of the rule is told once at most, by the rule itself, of its own field and
after everything else, and nothing iff all steps are taken and hold (`Rule.Routes`). -/
theorem rules_route (h : s.compile options = .ok V) :
    (∀ o, ∃ W, s.compile { options with observer := o } = .ok W ∧
      List.Forall₂ (fun r r' => r'.field = r.field ∧ ∀ (v : Option Json) (body : Json) (b b' : Option Observer),
        (r'.checkValue v body b').result = (r.checkValue v body b).result) V.rules W.rules) ∧
    ∀ r ∈ V.rules, (∀ body b, r.check body b = r.checkValue (body.get? r.field) body b) ∧
      ∀ v body, r.Routes options.observer v body := by
  constructor
  · intro o
    obtain ⟨W, hW⟩ := exists_compile_observer h o
    refine ⟨W, hW, forall₂_of_common ?_ (results_of_compile h) (results_of_compile hW)⟩
    rintro f r r' ⟨field, results⟩ ⟨field', results'⟩
    exact ⟨field'.trans field.symm, fun v body b b' => (results' v body b').trans (results v body b).symm⟩
  · intro r hr
    have uses := (Check.inductive_leaves (Entry.covers_isInner options.observer)).rules (fun _ _ => trivial) h r hr
    exact ⟨fun _ _ => rfl, Rule.routes_of_uses uses (steps_ne_nil_of_compile h r hr)⟩

end Specification

/-- A predicate that answers as its first argument does. -/
def viaFirst : Predicate := (Predicate.ofContext fun v _ _ => .consult 0 v .verdict).named "viaFirst"

/-- A crew whose members have a rank that is a number. -/
def crew : Specification :=
  .ofFields [("members", .ofTokens [.everySpec (.ofFields [
    ("rank", .ofTokens [.step (.predicate viaFirst) [.rule (.ofTokens [.name "number"])]])])])]

/-- A member whose rank is no number, and one without a rank. -/
def oddCrew : Json := .object [("members", .array [.object [("rank", .null)], .object []])]

/-- The crew is compiled for a listener and its rule checked for the log: the listener is told of the rank, at both
levels, and the log of the members. Where nobody observes, the predicate is called and nobody is told. -/
theorem crew_routes_oddCrew :
    ∃ V r, crew.compile { observer := some (.listener "crew") } = .ok V ∧ r ∈ V.rules ∧
      (r.check oddCrew (some .log)).noticesFor (.listener "crew") =
        [.stepFailed "rank" "number" [] .null, .stepFailed "rank" "viaFirst" [.rule ()] .null] ∧
      (r.check oddCrew (some .log)).noticesFor .log =
        [.stepFailed "members" "every" [.rule ()] (.array [.object [("rank", .null)], .object []])] ∧
      ∃ W r', crew.compile {} = .ok W ∧ r' ∈ W.rules ∧ (r'.check oddCrew none).trace.length = 1 ∧
        ∀ o n, Entry.notice o n ∉ (r'.check oddCrew none).trace := by
  have compiled : crew.compile { observer := some (.listener "crew") } = .ok _ := rfl
  have compiled' : crew.compile {} = .ok _ := rfl
  obtain ⟨_, routed⟩ := (Specification.rules_route compiled).2 _ List.mem_cons_self
  obtain ⟨_, routed'⟩ := (Specification.rules_route compiled').2 _ List.mem_cons_self
  have routes := routed (oddCrew.get? "members") oddCrew
  have routes' := routed' (oddCrew.get? "members") oddCrew
  refine ⟨_, _, compiled, List.mem_cons_self, ?_, ?_, _, _, compiled', List.mem_cons_self, rfl, routes'.silent rfl⟩
  · exact (routes.others (some .log) (.listener "crew") (by decide)).trans rfl
  · exact (routes.outer .log (by decide)).trans rfl

end BodySpec
