import BodySpec.Proofs.Answers
import BodySpec.Proofs.KeySet
import BodySpec.Proofs.Resolution

/-!
# Compilation preserves meaning

What a specification says of a body, read off its tokens (`Meaning`), is what its validator answers: the argument
compiled from a parameter has the meaning of the parameter (`Parameter.Preserved`), the rule of a declaration answers
what the declaration allows (`Declaration.Preserved`), and the rules of a specification accept together what the
specification accepts (`Specification.Preserved`). The induction is over the specification
(`Specification.preserved_cases`); values that stand for rules are an induction of their own (`Json.results_of_asRule`).

A strict validator compares sizes and looks up the keys one by one; since neither the keys of a body nor the fields of a
specification repeat, that is equality of the two sets (`Validator.keysMatch_iff`).
-/

namespace BodySpec

/-! ## Named steps -/

theorem Builtin.passesNamed_of_ofName? {n : String} {b : Builtin} (h : Builtin.ofName? n = some b)
    (args : List (Argument (Json → Bool))) (v : Json) : Builtin.passesNamed n args v = b.passes args v := by
  rw [Builtin.passesNamed, h]
  rfl

/-! ## Rules written as data -/

/-- A name with parameters that stands for a rule, from the rules among its parameters. -/
theorem Json.results_of_asRule_step {options : Options} {site : Site} {n : String} {ps : List Json}
    {a : Argument Check} (hps : ∀ p ∈ ps, ∀ (site : Site) (a : Argument Check),
      p.asRule options site = .ok a → a.results = .rule p.rulePasses)
    (h : (Json.array (.string n :: ps)).asRule options site = .ok a) :
    a.results = .rule (Json.array (.string n :: ps)).rulePasses := by
  obtain ⟨_, b, args, _, hb, hargs, rfl⟩ := Json.asRule_step_eq_ok.mp h
  have results : args.map Argument.results = if n = "every" then Json.rulesPass ps else ps.map Argument.value := by
    rw [Builtin.wantsRules_of_ofName? hb] at hargs
    by_cases hn : n = "every"
    · rw [if_pos (decide_eq_true hn), Json.asRules_eq] at hargs
      rw [if_pos hn, Json.rulesPass_eq]
      exact map_of_mapM (fun p hp a => hps p hp _ a) hargs
    · rw [if_neg (fun h => hn (of_decide_eq_true h))] at hargs
      rw [if_neg hn]
      cases hargs
      simp
  rw [Argument.results_rule]
  refine congrArg Argument.rule (funext fun v => ?_)
  rw [Json.rulePasses, Builtin.passesNamed_of_ofName? hb, ← results, Rule.result_toCheck]
  simp [Step.result_check, Routine.passes]

/-- The rule that a value stands for, once compiled, accepts what the value says. -/
theorem Json.results_of_asRule {options : Options} (v : Json) : ∀ (site : Site) (a : Argument Check),
    v.asRule options site = .ok a → a.results = .rule v.rulePasses := by
  induction v using Json.rule_induction with
  | name n =>
    intro site a h
    rw [Json.asRule_string] at h
    rw [Json.rulePasses_string]
    exact Json.results_of_asRule_step (fun _ hp => by cases hp) h
  | step n ps ih =>
    intro site a h
    exact Json.results_of_asRule_step ih h
  | other v hv =>
    intro site a h
    rw [Json.asRule_of_not_isRuleData hv] at h
    cases h

/-! ## Tokens, parameters and declarations -/

/-- What a clause says of the value of a field; a modifier says nothing. -/
def Clause.passes (context : Context) (v : Json) (c : Clause) : Bool :=
  c.step?.all fun s => (s.check v context).result

theorem Clause.passes_step (context : Context) (v : Json) (s : Step) :
    (Clause.step s).passes context v = s.routine.passes (s.args.map Argument.results) context v :=
  Step.result_check s v context

/-- The steps among clauses hold of a value when all clauses do. -/
theorem Clause.all_steps (context : Context) (v : Json) (cs : List Clause) :
    ((cs.filterMap Clause.step?).all fun s => (s.check v context).result) = cs.all (Clause.passes context v) := by
  induction cs with
  | nil => rfl
  | cons c cs ih =>
    cases c with
    | modifier m => exact ih
    | step s => exact congrArg ((s.check v context).result && ·) ih

section Induction

variable {options : Options}

/-- The clause of a token says what the token says. -/
def Token.Preserved (options : Options) (t : Token) : Prop :=
  ∀ (site : Site) (c : Clause), t.clause options site = .ok c → ∀ (v body : Json),
    c.passes { body, field := site.field } v = (t.modifier?.isSome || t.holds { body, field := site.field } v)

/-- The argument of a parameter has its meaning. -/
def Parameter.Preserved (options : Options) (p : Parameter) : Prop :=
  ∀ (site : Site) (w : Bool) (a : Argument Check), p.argument options site w = .ok a →
    a.results = p.meaning site.field w

/-- The rule of a declaration answers what the declaration allows. -/
def Declaration.Preserved (options : Options) (d : Declaration) : Prop :=
  ∀ (site : Site) (r : Rule), d.rule options site = .ok r →
    ∀ (v : Option Json) (body : Json) (o : Option Observer),
    (r.checkValue v body o).result = d.allows { body, field := site.field } v

/-- The rules of a specification accept together what it accepts. -/
def Specification.Preserved (options : Options) (s : Specification) : Prop :=
  ∀ (depth : Nat) (rules : List Rule), s.rulesAt options depth = .ok rules → ∀ members : Json.Members,
    (rules.all fun r => (r.check (.object members) none).result) = s.accepts (.object members)

theorem Parameter.results_of_arguments {ps : List Parameter} (hps : ∀ p ∈ ps, p.Preserved options) {site : Site}
    {w : Bool} {args : List (Argument Check)} (h : Parameter.arguments options site w ps = .ok args) :
    args.map Argument.results = Parameter.meanings site.field w ps := by
  rw [Parameter.arguments_eq] at h
  rw [Parameter.meanings_eq]
  exact map_of_mapM (fun p hp => hps p hp site w) h

theorem Token.preserved_named (n : String) {ps : List Parameter} (hps : ∀ p ∈ ps, p.Preserved options) :
    (Token.step (.name n) ps).Preserved options := by
  intro site c h v body
  rw [Token.clause] at h
  rcases Clause.ofName_eq_ok.mp h with ⟨m, hm, hps, rfl⟩ | ⟨b, args, hm, hb, hargs, rfl⟩
  · rw [List.isEmpty_iff.mp hps, Token.modifier?, hm]
    rfl
  · have none : (Token.step (.name n) ps).modifier? = none := by cases ps <;> first | exact hm | rfl
    rw [Clause.passes_step, Parameter.results_of_arguments hps hargs, none, Builtin.wantsRules_of_ofName? hb,
      Token.holds, Builtin.passesNamed_of_ofName? hb]
    rfl

/-- A name is a step without parameters. -/
theorem Token.preserved_name (n : String) : (Token.name n).Preserved options := by
  intro site c h
  have step : (Token.step (.name n) []).Preserved options := Token.preserved_named n fun _ hp => by cases hp
  refine step site c ?_
  rw [← h, Token.clause, Token.clause]
  rfl

theorem Token.preserved_inline (q : Predicate) {ps : List Parameter} (hps : ∀ p ∈ ps, p.Preserved options) :
    (Token.step (.predicate q) ps).Preserved options := by
  intro site c h v body
  rw [Token.clause] at h
  obtain ⟨args, hargs, hc⟩ := bind_eq_ok.mp h
  cases hc
  rw [Clause.passes_step, Parameter.results_of_arguments hps hargs, Token.holds]
  rfl

theorem Declaration.preserved {ts : List Token} (hts : ∀ t ∈ ts, t.Preserved options) :
    (Declaration.ofTokens ts).Preserved options := by
  intro site r h v body o
  have flags := Declaration.flags_of_rule h
  have field := Declaration.field_of_rule h
  obtain ⟨cs, hcs, hr⟩ := Declaration.rule_eq_ok.mp h
  rw [Rule.result_checkValue, flags.1, flags.2, field]
  cases v with
  | none => rfl
  | some w =>
    have steps : (r.steps.all fun s => (s.check w { body, field := site.field }).result) =
        Token.allHold { body, field := site.field } w ts := by
      rw [(Rule.ofClauses_eq_ok.mp hr).2, Clause.all_steps, Token.allHold_eq]
      exact all_of_mapM (fun t ht c hc => hts t ht site c hc w body) (mapM_eq_ok.mpr hcs)
    simp only [Declaration.allows, steps]

theorem Specification.preserved {fs : List (String × Declaration)} (hfs : ∀ f ∈ fs, f.2.Preserved options) :
    (Specification.ofFields fs).Preserved options := by
  intro depth rules h members
  replace h := mapM_eq_ok.mpr (Specification.rulesAt_eq_ok.mp h)
  rw [Specification.accepts_eq, Specification.fields]
  refine all_of_mapM (fun f hf r hr => ?_) h
  rw [Rule.check, Declaration.field_of_rule hr]
  exact hfs f hf _ r hr _ _ none

theorem Parameter.preserved_spec {s : Specification} (hs : s.Preserved options) :
    (Parameter.spec s).Preserved options := by
  intro site w a h
  obtain ⟨_, rules, hr, rfl⟩ := Parameter.argument_spec_eq_ok.mp h
  refine congrArg Argument.rule (funext fun v => ?_)
  cases v with
  | object members => exact (Validator.result_validate _ members).trans (hs _ rules hr members)
  | _ => exact (Specification.accepts_eq_false (fun _ h => by cases h)).symm

/-- Compilation preserves the meaning of everything in a specification. -/
theorem Specification.preserved_cases (options : Options) :
    Specification.Cases (Token.Preserved options) (Parameter.Preserved options) (Declaration.Preserved options)
      (Specification.Preserved options) where
  name := Token.preserved_name
  predicate p := by
    intro site c h v body
    cases h
    rw [Clause.passes_step, Token.holds]
    rfl
  named n _ hps := Token.preserved_named n hps
  inline q _ hps := Token.preserved_inline q hps
  modifier m := by
    intro site c h v body
    cases h
    rfl
  value v := by
    intro site w a h
    cases w with
    | true => exact Json.results_of_asRule v site a h
    | false => cases h; rfl
  rule d hd := by
    intro site w a h
    obtain ⟨_, r, hr, rfl⟩ := Parameter.argument_rule_eq_ok.mp h
    -- the check of a nested rule takes each value for the body as well
    exact congrArg Argument.rule (funext fun v => hd _ r hr (some v) v options.observer)
  spec _ hs := Parameter.preserved_spec hs
  tokens _ hts := Declaration.preserved hts
  fields _ hfs := Specification.preserved hfs

end Induction

/-! ## Validators -/

/-- A validator answers whether the keys match, if they have to, and the specification accepts the body. -/
theorem Specification.result_of_compile {s : Specification} {options : Options} {V : Validator}
    (h : s.compile options = .ok V) (members : Json.Members) :
    (V.validate (.object members)).result =
      ((!options.strict || V.keysMatch members) && s.accepts (.object members)) := by
  obtain ⟨rules, hr, rfl⟩ := Specification.compile_eq_ok.mp h
  rw [Validator.result_validate]
  exact congrArg _ ((Specification.preserved_cases options).specification s 0 rules hr members)

/-- **Compilation preserves meaning**: a validator accepts the bodies that satisfy its specification. The keys of a body
do not repeat, as those of any that is read: they are in order (`Json.ordered_of_ofBytes?`). -/
theorem Specification.result_validate_iff_satisfiedBy {s : Specification} {options : Options} {V : Validator}
    (h : s.compile options = .ok V) (body : Json) (hb : body.keys.Nodup) :
    (V.validate body).result = true ↔ s.SatisfiedBy options.strict body := by
  cases body with
  | object members =>
    have fields : V.fields = s.names := Specification.fields_of_compile h
    rw [Specification.result_of_compile h, Bool.and_eq_true, Bool.or_eq_true, Bool.not_eq_true',
      V.keysMatch_iff hb, fields, Specification.accepts_iff]
    constructor
    · rintro ⟨hs, _, ⟨⟩, _, hf⟩
      refine ⟨members, rfl, fun strict => ?_, hf⟩
      rcases hs with hs | hs
      · rw [hs] at strict; cases strict
      · exact hs
    · rintro ⟨_, ⟨⟩, hs, hf⟩
      refine ⟨?_, members, rfl, fun strict => (by cases strict), hf⟩
      cases hst : options.strict with
      | false => exact .inl rfl
      | true => exact .inr (hs hst)
  | _ =>
    constructor
    · intro h; cases h
    · rintro ⟨_, h, _⟩; cases h

/-- Tasks that are done or not, and a note that may be null. -/
def taskList : Specification :=
  .ofFields [
    ("tasks", .ofTokens [.everySpec (.ofFields [("done", .ofTokens [.name "boolean"])])]),
    ("note", .ofTokens [.name "string", .name "optionalOrNull"])]

/-- One task, with a key that is not declared. -/
def oneTask : Json := .object [("note", .null), ("tasks", .array [.object [("done", .bool true), ("title", .null)]])]

/-- A strict task list accepts the task: nested bodies may have other keys. -/
theorem taskList_satisfiedBy_oneTask :
    ∃ V, taskList.compile { strict := true } = .ok V ∧ oneTask.keys.Nodup ∧ (V.validate oneTask).result = true ∧
      taskList.SatisfiedBy true oneTask := by
  refine ⟨_, rfl, by decide, rfl, ?_⟩
  have compiled : taskList.compile { strict := true } = .ok _ := rfl
  exact (Specification.result_validate_iff_satisfiedBy compiled oneTask (by decide)).mp rfl

end BodySpec
