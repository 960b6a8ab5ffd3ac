import BodySpec.Proofs.Resolution

/-!
# What holds of every compiled check

Compilation makes checks in two ways only: from the rule of a nested declaration and from the validator of a nested
specification. A property that both have, as soon as the checks among their own arguments have it, holds of every check
in the rules of a specification (`Check.Inductive.rules`). The property may rest on what holds of all predicates in the
specification.
-/

namespace BodySpec

/-! ## Steps and rules with a property -/

/-- The predicate and the nested checks of a step have the properties. -/
def Step.Uses (ok : Predicate → Prop) (Q : Check → Prop) (s : Step) : Prop :=
  (∀ p, s.routine = .custom p → ok p) ∧ ∀ check, Argument.rule check ∈ s.args → Q check

def Rule.Uses (ok : Predicate → Prop) (Q : Check → Prop) (r : Rule) : Prop := ∀ s ∈ r.steps, s.Uses ok Q

/-- A property of checks that passes from the nested checks of rules and validators to themselves. -/
structure Check.Inductive (options : Options) (ok : Predicate → Prop) (Q : Check → Prop) : Prop where
  rule : ∀ r : Rule, r.Uses ok Q → Q (r.toCheck options.observer)
  validator : ∀ rules : List Rule, (∀ r ∈ rules, r.Uses ok Q) →
    Q (Validator.validate { rules, strict := false, observer := options.observer })

section Induction

variable {options : Options} {ok : Predicate → Prop} {Q : Check → Prop}

theorem Step.uses_builtin {b : Builtin} {args : List (Argument Check)}
    (h : ∀ check, .rule check ∈ args → Q check) :
    Step.Uses ok Q { routine := .builtin b, args } :=
  ⟨fun _ hp => (by cases hp), h⟩

theorem Step.uses_custom {p : Predicate} {args : List (Argument Check)} (hp : ok p)
    (h : ∀ check, .rule check ∈ args → Q check) : Step.Uses ok Q { routine := .custom p, args } :=
  ⟨fun _ hq => (by cases hq; exact hp), h⟩

theorem mem_of_mapM {α β : Type} {f : α → Except Fault β} {xs : List α} {ys : List β} (h : xs.mapM f = .ok ys) :
    ∀ y ∈ ys, ∃ x ∈ xs, f x = .ok y := by
  replace h := mapM_eq_ok.mp h
  induction h with
  | nil => intro y hy; cases hy
  | @cons x y xs ys hxy _ ih =>
    intro z hz
    rcases List.mem_cons.mp hz with rfl | hz
    · exact ⟨x, List.mem_cons_self, hxy⟩
    · obtain ⟨w, hw, hwz⟩ := ih z hz
      exact ⟨w, List.mem_cons_of_mem _ hw, hwz⟩

/-! ## Rules written as data -/

theorem Json.keeps_step (hQ : Check.Inductive options ok Q) {n : String} {ps : List Json}
    (hps : ∀ p ∈ ps, ∀ (site : Site) (check : Check), p.asRule options site = .ok (.rule check) → Q check)
    {site : Site} {check : Check} (h : (Json.array (.string n :: ps)).asRule options site = .ok (.rule check)) :
    Q check := by
  obtain ⟨_, b, args, _, _, hargs, hc⟩ := Json.asRule_step_eq_ok.mp h
  cases hc
  refine hQ.rule _ fun s hs => ?_
  cases List.mem_singleton.mp hs
  refine Step.uses_builtin fun inner hi => ?_
  cases hw : b.wantsRules with
  | true =>
    rw [hw, if_pos rfl, Json.asRules_eq] at hargs
    obtain ⟨p, hp, hpi⟩ := mem_of_mapM hargs _ hi
    exact hps p hp _ inner hpi
  | false =>
    rw [hw] at hargs
    cases hargs
    obtain ⟨_, _, hv⟩ := List.mem_map.mp hi
    cases hv

theorem Json.keeps (hQ : Check.Inductive options ok Q) (v : Json) : ∀ (site : Site) (check : Check),
    v.asRule options site = .ok (.rule check) → Q check := by
  induction v using Json.rule_induction with
  | name n =>
    intro site check h
    rw [Json.asRule_string] at h
    exact Json.keeps_step hQ (fun _ hp => by cases hp) h
  | step n ps ih =>
    intro site check h
    exact Json.keeps_step hQ ih h
  | other v hv =>
    intro site check h
    rw [Json.asRule_of_not_isRuleData hv] at h
    cases h

/-! ## Specifications -/

/-- The step of a token has the properties, if the predicates in the token have theirs. -/
def Token.Keeps (options : Options) (ok : Predicate → Prop) (Q : Check → Prop) (t : Token) : Prop :=
  (∀ p ∈ t.predicates, ok p) → ∀ (site : Site) (s : Step), t.clause options site = .ok (.step s) → s.Uses ok Q

def Parameter.Keeps (options : Options) (ok : Predicate → Prop) (Q : Check → Prop) (p : Parameter) : Prop :=
  (∀ q ∈ p.predicates, ok q) → ∀ (site : Site) (w : Bool) (check : Check),
    p.argument options site w = .ok (.rule check) → Q check

def Declaration.Keeps (options : Options) (ok : Predicate → Prop) (Q : Check → Prop) (d : Declaration) : Prop :=
  (∀ p ∈ d.predicates, ok p) → ∀ (site : Site) (r : Rule), d.rule options site = .ok r → r.Uses ok Q

def Specification.Keeps (options : Options) (ok : Predicate → Prop) (Q : Check → Prop) (s : Specification) : Prop :=
  (∀ p ∈ s.predicates, ok p) → ∀ (depth : Nat) (rules : List Rule), s.rulesAt options depth = .ok rules →
    ∀ r ∈ rules, r.Uses ok Q

theorem Parameter.keeps_arguments {ps : List Parameter} (hps : ∀ p ∈ ps, p.Keeps options ok Q)
    (hq : ∀ q ∈ Parameter.allPredicates ps, ok q) {site : Site} {w : Bool} {args : List (Argument Check)}
    (h : Parameter.arguments options site w ps = .ok args) : ∀ check, Argument.rule check ∈ args → Q check := by
  intro check hc
  rw [Parameter.arguments_eq] at h
  obtain ⟨p, hp, hpc⟩ := mem_of_mapM h _ hc
  refine hps p hp (fun q hqp => hq q ?_) site w check hpc
  rw [Parameter.allPredicates_eq]
  exact List.mem_flatMap.mpr ⟨p, hp, hqp⟩

theorem Token.keeps_named (n : String) {ps : List Parameter} (hps : ∀ p ∈ ps, p.Keeps options ok Q) :
    (Token.step (.name n) ps).Keeps options ok Q := by
  intro hp site s h
  rw [Token.clause] at h
  rcases Clause.ofName_eq_ok.mp h with ⟨_, _, _, hc⟩ | ⟨b, args, _, _, hargs, hc⟩
  · cases hc
  · cases hc
    exact Step.uses_builtin (Parameter.keeps_arguments hps hp hargs)

theorem Token.keeps_name (n : String) : (Token.name n).Keeps options ok Q := by
  intro _ site s h
  rw [Token.clause] at h
  rcases Clause.ofName_eq_ok.mp h with ⟨_, _, _, hc⟩ | ⟨b, args, _, _, hargs, hc⟩
  · cases hc
  · cases hc; cases hargs
    exact Step.uses_builtin fun _ hm => by cases hm

theorem Token.keeps_inline (q : Predicate) {ps : List Parameter} (hps : ∀ p ∈ ps, p.Keeps options ok Q) :
    (Token.step (.predicate q) ps).Keeps options ok Q := by
  intro hp site s h
  rw [Token.clause] at h
  obtain ⟨args, hargs, hc⟩ := bind_eq_ok.mp h
  cases hc
  exact Step.uses_custom (hp q List.mem_cons_self)
    (Parameter.keeps_arguments hps (fun r hr => hp r (List.mem_cons_of_mem _ hr)) hargs)

theorem Declaration.keeps {ts : List Token} (hts : ∀ t ∈ ts, t.Keeps options ok Q) :
    (Declaration.ofTokens ts).Keeps options ok Q := by
  intro hp site r h s hs
  obtain ⟨cs, hcs, hr⟩ := Declaration.rule_eq_ok.mp h
  rw [(Rule.ofClauses_eq_ok.mp hr).2] at hs
  obtain ⟨c, hc, hcs'⟩ := List.mem_filterMap.mp hs
  obtain ⟨t, ht, htc⟩ := mem_of_mapM (mapM_eq_ok.mpr hcs) c hc
  cases c with
  | modifier m => cases hcs'
  | step s' =>
    cases hcs'
    refine hts t ht (fun p hpt => hp p ?_) site s htc
    rw [Declaration.predicates, Token.allPredicates_eq]
    exact List.mem_flatMap.mpr ⟨t, ht, hpt⟩

theorem Specification.keeps {fs : List (String × Declaration)} (hfs : ∀ f ∈ fs, f.2.Keeps options ok Q) :
    (Specification.ofFields fs).Keeps options ok Q := by
  intro hp depth rules h r hr
  obtain ⟨f, hf, hfr⟩ := mem_of_mapM (mapM_eq_ok.mpr (Specification.rulesAt_eq_ok.mp h)) r hr
  refine hfs f hf (fun p hpf => hp p ?_) _ r hfr
  rw [Specification.predicates, Specification.allPredicates_eq]
  exact List.mem_flatMap.mpr ⟨f, hf, hpf⟩

theorem Specification.keeps_cases (hQ : Check.Inductive options ok Q) :
    Specification.Cases (Token.Keeps options ok Q) (Parameter.Keeps options ok Q) (Declaration.Keeps options ok Q)
      (Specification.Keeps options ok Q) where
  name := Token.keeps_name
  predicate p := by
    intro hp site s h
    cases h
    exact Step.uses_custom (hp p List.mem_cons_self) fun _ hm => by cases hm
  named n _ hps := Token.keeps_named n hps
  inline q _ hps := Token.keeps_inline q hps
  modifier m := by
    intro _ site s h
    cases h
  value v := by
    intro _ site w check h
    cases w with
    | true => exact Json.keeps hQ v site check h
    | false => cases h
  rule d hd := by
    intro hp site w check h
    obtain ⟨_, r, hr, hc⟩ := Parameter.argument_rule_eq_ok.mp h
    cases hc
    exact hQ.rule r (hd hp _ r hr)
  spec s hs := by
    intro hp site w check h
    obtain ⟨_, rules, hr, hc⟩ := Parameter.argument_spec_eq_ok.mp h
    cases hc
    exact hQ.validator rules (hs hp _ rules hr)
  tokens _ hts := Declaration.keeps hts
  fields _ hfs := Specification.keeps hfs

end Induction

/-- **An inductive property of checks holds of all that a validator consults.** -/
theorem Check.Inductive.rules {options : Options} {ok : Predicate → Prop} {Q : Check → Prop}
    (hQ : Check.Inductive options ok Q) {s : Specification} (hp : ∀ p ∈ s.predicates, ok p) {V : Validator}
    (h : s.compile options = .ok V) : ∀ r ∈ V.rules, r.Uses ok Q := by
  obtain ⟨rules, hr, rfl⟩ := Specification.compile_eq_ok.mp h
  exact (Specification.keeps_cases hQ).specification s hp 0 rules hr

end BodySpec
