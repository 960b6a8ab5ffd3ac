import BodySpec.Proofs.Syntax
import BodySpec.Specification.Rules
import Mathlib.Data.List.Forall2

/-!
# What a compiled specification is made of

Compilation goes through lists one element at a time and stops at the first fault, so each of its list functions is
`mapM` (`Token.clauses_eq`, `Parameter.arguments_eq`, `Json.asRules_eq`, `Specification.rulesOf_eq`), and a success
relates the lists element by element (`mapM_eq_ok`). For each construct one lemma says all that a success can be:
`Clause.ofName_eq_ok`, `Rule.ofClauses_eq_ok`, `Site.enter_eq_ok`, `Site.ruleArgument_eq_ok`,
`Parameter.argument_spec_eq_ok`, `Declaration.rule_eq_ok` and `Specification.rulesAt_eq_ok`.

The names and flags of the rules are those of the declarations (`Specification.fields_of_rulesAt`,
`Declaration.flags_of_rule`).
-/

namespace BodySpec

/-! ## Successes -/

section Success

variable {α β : Type}

theorem bind_eq_ok {x : Except Fault α} {f : α → Except Fault β} {b : β} :
    x >>= f = .ok b ↔ ∃ a, x = .ok a ∧ f a = .ok b := by
  cases x with
  | error e => simp [bind, Except.bind]
  | ok a => simp [bind, Except.bind]

theorem pure_eq_ok {a b : α} : (pure a : Except Fault α) = .ok b ↔ a = b := by
  simp [pure, Except.pure]

theorem mapM_eq_ok {f : α → Except Fault β} {xs : List α} {ys : List β} :
    xs.mapM f = .ok ys ↔ List.Forall₂ (fun x y => f x = .ok y) xs ys := by
  induction xs generalizing ys with
  | nil => cases ys <;> simp [pure, Except.pure]
  | cons x xs ih =>
    simp only [List.mapM_cons, bind_eq_ok, pure_eq_ok, ih]
    constructor
    · rintro ⟨y, hy, ys, hys, rfl⟩
      exact .cons hy hys
    · rintro (_ | ⟨hy, hys⟩)
      exact ⟨_, hy, _, hys, rfl⟩

/-- A success over a list, seen through functions that agree on each of its elements. -/
theorem map_of_mapM {γ : Type} {f : α → Except Fault β} {g : β → γ} {k : α → γ}
    {xs : List α} {ys : List β}
    (hf : ∀ x ∈ xs, ∀ y, f x = .ok y → g y = k x) (h : xs.mapM f = .ok ys) : ys.map g = xs.map k := by
  replace h := mapM_eq_ok.mp h
  induction h with
  | nil => rfl
  | cons hy _ ih =>
    rw [List.map_cons, List.map_cons, hf _ List.mem_cons_self _ hy, ih fun x hx => hf x (List.mem_cons_of_mem _ hx)]

/-- A test of all results is one of all elements, where the tests agree. -/
theorem all_of_mapM {f : α → Except Fault β} {q : β → Bool} {p : α → Bool} {xs : List α} {ys : List β}
    (hf : ∀ x ∈ xs, ∀ y, f x = .ok y → q y = p x) (h : xs.mapM f = .ok ys) : ys.all q = xs.all p := by
  have tests : ys.map q = xs.map p := map_of_mapM hf h
  simpa only [List.all_map, Function.id_comp] using congrArg (List.all · id) tests

theorem any_of_mapM {f : α → Except Fault β} {q : β → Bool} {p : α → Bool} {xs : List α} {ys : List β}
    (hf : ∀ x ∈ xs, ∀ y, f x = .ok y → q y = p x) (h : xs.mapM f = .ok ys) : ys.any q = xs.any p := by
  have tests : ys.map q = xs.map p := map_of_mapM hf h
  simpa only [List.any_map, Function.id_comp] using congrArg (List.any · id) tests

end Success

/-! ## Lists -/

/-- The rule of a declaration. -/
def Declaration.rule (options : Options) (site : Site) (d : Declaration) : Except Fault Rule := do
  Rule.ofClauses site.field (← d.clauses options site)

theorem Token.clauses_eq (options : Options) (site : Site) (ts : List Token) :
    Token.clauses options site ts = ts.mapM (Token.clause options site) := by
  induction ts with
  | nil => rfl
  | cons t ts ih => rw [Token.clauses, List.mapM_cons, ih]

theorem Parameter.arguments_eq (options : Options) (site : Site) (wantsRules : Bool) (ps : List Parameter) :
    Parameter.arguments options site wantsRules ps = ps.mapM (Parameter.argument options site wantsRules) := by
  induction ps with
  | nil => rfl
  | cons p ps ih => rw [Parameter.arguments, List.mapM_cons, ih]

theorem Json.asRules_eq (options : Options) (site : Site) (vs : List Json) :
    Json.asRules options site vs = vs.mapM (Json.asRule options site) := by
  induction vs with
  | nil => rfl
  | cons v vs ih => rw [Json.asRules, List.mapM_cons, ih]

theorem Specification.rulesOf_eq (options : Options) (depth : Nat) (fs : List (String × Declaration)) :
    Specification.rulesOf options depth fs = fs.mapM fun f => f.2.rule options { field := f.1, depth } := by
  induction fs with
  | nil => rfl
  | cons f fs ih =>
    rw [Specification.rulesOf, List.mapM_cons, ih, Declaration.rule, bind_assoc]

/-! ## Clauses -/

theorem Builtin.wantsRules_of_ofName? {n : String} {b : Builtin} (h : Builtin.ofName? n = some b) :
    b.wantsRules = decide (n = "every") := by
  rw [← Builtin.name_of_ofName? h]
  cases b <;> decide

namespace Clause

def modifier? : Clause → Option Modifier
  | modifier m => some m
  | step _ => none

/-- A clause from a name is a modifier without parameters, or a step of a built-in validator. -/
theorem ofName_eq_ok {field name : String} {bare : Bool} {arguments : Bool → Except Fault (List (Argument Check))}
    {c : Clause} : ofName field name bare arguments = .ok c ↔
      (∃ m, Modifier.ofName? name = some m ∧ bare = true ∧ c = modifier m) ∨
      (∃ b args, Modifier.ofName? name = none ∧ Builtin.ofName? name = some b ∧
        arguments b.wantsRules = .ok args ∧
        c = step { routine := .builtin b, args }) := by
  unfold ofName
  cases Modifier.ofName? name with
  | some m => cases bare <;> simp [eq_comm]
  | none =>
    cases Builtin.ofName? name with
    | none => simp
    | some b =>
      rw [bind_eq_ok]
      constructor
      · rintro ⟨args, ha, h⟩
        exact .inr ⟨b, args, rfl, rfl, ha, (pure_eq_ok.mp h).symm⟩
      · rintro (⟨_, hm, _⟩ | ⟨_, args, _, ⟨⟩, ha, rfl⟩)
        · cases hm
        · exact ⟨args, ha, rfl⟩

theorem isModifier_eq (m : Modifier) (c : Clause) : isModifier m c = (c.modifier? == some m) := by
  cases c with
  | modifier n => cases m <;> cases n <;> rfl
  | step s => rfl

end Clause

/-- A token contributes the modifier that it spells, and a step if it spells none. -/
theorem Token.modifier?_of_clause {options : Options} {site : Site} {t : Token} {c : Clause}
    (h : t.clause options site = .ok c) : c.modifier? = t.modifier? := by
  cases t with
  | modifier m => cases h; rfl
  | predicate p => cases h; rfl
  | name n =>
    rw [Token.clause] at h
    rcases Clause.ofName_eq_ok.mp h with ⟨m, hm, _, rfl⟩ | ⟨b, args, hm, _, _, rfl⟩
    · exact hm.symm
    · exact hm.symm
  | step head ps =>
    cases head with
    | name n =>
      rw [Token.clause] at h
      rcases Clause.ofName_eq_ok.mp h with ⟨m, hm, hps, rfl⟩ | ⟨b, args, hm, _, _, rfl⟩
      · rw [List.isEmpty_iff.mp hps]
        exact hm.symm
      · cases ps with
        | nil => exact hm.symm
        | cons _ _ => rfl
    | predicate p =>
      rw [Token.clause] at h
      obtain ⟨args, _, hc⟩ := bind_eq_ok.mp h
      cases hc; rfl

/-- The step of a token is labelled as the token. -/
theorem Token.label_of_clause {options : Options} {site : Site} {t : Token} {s : Step}
    (h : t.clause options site = .ok (.step s)) : s.label = t.label := by
  have named : ∀ {n : String} {bare : Bool} {arguments : Bool → Except Fault (List (Argument Check))},
      Clause.ofName site.field n bare arguments = .ok (.step s) → s.label = n := by
    intro n bare arguments h
    rcases Clause.ofName_eq_ok.mp h with ⟨_, _, _, hc⟩ | ⟨b, args, _, hb, _, hc⟩
    · cases hc
    · cases hc
      exact Builtin.name_of_ofName? hb
  cases t with
  | modifier m => cases h
  | predicate p => cases h; rfl
  | name n =>
    rw [Token.clause] at h
    exact named h
  | step head ps =>
    cases head with
    | name n =>
      rw [Token.clause] at h
      exact named h
    | predicate p =>
      rw [Token.clause] at h
      obtain ⟨args, _, hc⟩ := bind_eq_ok.mp h
      cases hc; rfl

/-- The clauses of tokens hold a step iff one of the tokens is no modifier. -/
theorem Token.hasStep_of_clauses {options : Options} {site : Site} {ts : List Token} {cs : List Clause}
    (h : Token.clauses options site ts = .ok cs) :
    (cs.filterMap Clause.step?).isEmpty = !ts.any fun t => t.modifier?.isNone := by
  rw [Token.clauses_eq] at h
  have any_eq : (cs.any fun c => c.modifier?.isNone) = ts.any fun t => t.modifier?.isNone :=
    any_of_mapM (fun t _ c hc => by rw [Token.modifier?_of_clause hc]) h
  rw [← any_eq]
  clear h any_eq
  induction cs with
  | nil => rfl
  | cons c cs ih =>
    cases c with
    | modifier m => exact ih
    | step s => rfl

/-! ## Rules -/

theorem Rule.ofClauses_eq_ok {field : String} {cs : List Clause} {r : Rule} :
    Rule.ofClauses field cs = .ok r ↔ cs.filterMap Clause.step? ≠ [] ∧ r = {
      field
      steps := cs.filterMap Clause.step?
      optional := cs.any (Clause.isModifier .optional)
      optionalOrNull := cs.any (Clause.isModifier .optionalOrNull) } := by
  simp only [Rule.ofClauses]
  split
  · rename_i h; simp [List.isEmpty_iff.mp h]
  · rename_i h; simp [List.isEmpty_iff.not.mp h, eq_comm]

theorem Site.enter_eq_ok {α : Type} {options : Options} {site : Site} {content : Site → Except Fault α} {a : α} :
    site.enter options content = .ok a ↔
      site.depth + 1 ≤ options.maxDepth ∧ content { site with depth := site.depth + 1 } = .ok a := by
  unfold Site.enter
  split <;> simp [*]

theorem Site.ruleArgument_eq_ok {options : Options} {site : Site} {clauses : Except Fault (List Clause)}
    {a : Argument Check} : site.ruleArgument options clauses = .ok a ↔
      ∃ cs r, clauses = .ok cs ∧ Rule.ofClauses site.field cs = .ok r ∧
        a = .rule (r.toCheck options.observer) := by
  simp only [Site.ruleArgument, bind_eq_ok, pure_eq_ok]
  constructor
  · rintro ⟨cs, hcs, r, hr, rfl⟩
    exact ⟨cs, r, hcs, hr, rfl⟩
  · rintro ⟨cs, r, hcs, hr, rfl⟩
    exact ⟨cs, hcs, r, hr, rfl⟩

theorem Declaration.rule_eq_ok {options : Options} {site : Site} {d : Declaration} {r : Rule} :
    d.rule options site = .ok r ↔
      ∃ cs, List.Forall₂ (fun t c => t.clause options site = .ok c) d.tokens cs ∧
        Rule.ofClauses site.field cs = .ok r := by
  obtain ⟨ts⟩ := d
  simp only [Declaration.rule, Declaration.clauses, Token.clauses_eq, bind_eq_ok, mapM_eq_ok, Declaration.tokens]

/-- A nested declaration becomes the check of its rule, one level deeper. -/
theorem Parameter.argument_rule_eq_ok {options : Options} {site : Site} {w : Bool} {d : Declaration}
    {a : Argument Check} : (Parameter.rule d).argument options site w = .ok a ↔
      site.depth + 1 ≤ options.maxDepth ∧ ∃ r, d.rule options { site with depth := site.depth + 1 } = .ok r ∧
        a = .rule (r.toCheck options.observer) := by
  simp only [Parameter.argument, Site.enter_eq_ok, Site.ruleArgument_eq_ok, Declaration.rule, bind_eq_ok]
  constructor
  · rintro ⟨hd, cs, r, hcs, hr, rfl⟩
    exact ⟨hd, r, ⟨cs, hcs, hr⟩, rfl⟩
  · rintro ⟨hd, r, ⟨cs, hcs, hr⟩, rfl⟩
    exact ⟨hd, cs, r, hcs, hr, rfl⟩

/-- A nested specification becomes the validator of its rules, which is not strict, one level deeper. -/
theorem Parameter.argument_spec_eq_ok {options : Options} {site : Site} {w : Bool} {s : Specification}
    {a : Argument Check} : (Parameter.spec s).argument options site w = .ok a ↔
      site.depth + 1 ≤ options.maxDepth ∧ ∃ rules, s.rulesAt options (site.depth + 1) = .ok rules ∧
        a = .rule (Validator.validate { rules, strict := false, observer := options.observer }) := by
  simp only [Parameter.argument, Site.enter_eq_ok]
  cases s.rulesAt options (site.depth + 1) with
  | error e => simp
  | ok rules => simp [eq_comm]

theorem Specification.rulesAt_eq_ok {options : Options} {depth : Nat} {s : Specification} {rules : List Rule} :
    s.rulesAt options depth = .ok rules ↔
      List.Forall₂ (fun f r => f.2.rule options { field := f.1, depth } = .ok r) s.fields rules := by
  obtain ⟨fs⟩ := s
  simp only [Specification.rulesAt, Specification.rulesOf_eq, mapM_eq_ok, Specification.fields]

theorem Specification.compile_eq_ok {s : Specification} {options : Options} {V : Validator} :
    s.compile options = .ok V ↔
      ∃ rules, s.rulesAt options 0 = .ok rules ∧
        V = { rules, strict := options.strict, observer := options.observer } := by
  rw [Specification.compile, Specification.rules, bind_eq_ok]
  constructor
  · rintro ⟨rules, hr, hV⟩
    exact ⟨rules, hr, (pure_eq_ok.mp hV).symm⟩
  · rintro ⟨rules, hr, rfl⟩
    exact ⟨rules, hr, rfl⟩

/-! ## Rules written as data -/

namespace Json

theorem asRule_string (options : Options) (site : Site) (n : String) :
    (string n).asRule options site = (array [string n]).asRule options site := by
  have none : ∀ (b : Bool) (site : Site),
      (if b then asRules options site [] else .ok ([].map .value)) = Except.ok [] := by
    intro b site
    cases b <;> rfl
  simp only [asRule, none, List.isEmpty_nil]

/-- A name with parameters becomes the check of a rule with one step, one level deeper. -/
theorem asRule_step_eq_ok {options : Options} {site : Site} {n : String} {ps : List Json} {a : Argument Check} :
    (array (string n :: ps)).asRule options site = .ok a ↔
      site.depth + 1 ≤ options.maxDepth ∧ ∃ b args, Modifier.ofName? n = none ∧ Builtin.ofName? n = some b ∧
        (if b.wantsRules then asRules options { site with depth := site.depth + 1 } ps else .ok (ps.map .value)) =
          .ok args ∧
        a = .rule (Rule.toCheck {
          field := site.field, steps := [{ routine := .builtin b, args }], optional := false, optionalOrNull := false }
          options.observer) := by
  simp only [asRule, Site.enter_eq_ok, Site.ruleArgument_eq_ok, bind_eq_ok, pure_eq_ok, Clause.ofName_eq_ok]
  refine and_congr_right fun _ => ?_
  constructor
  · rintro ⟨_, r, ⟨c, ⟨m, _, _, rfl⟩ | ⟨b, args, hm, hb, hargs, rfl⟩, rfl⟩, hr, rfl⟩
    · exact absurd rfl (Rule.ofClauses_eq_ok.mp hr).1
    · exact ⟨b, args, hm, hb, hargs, by rw [(Rule.ofClauses_eq_ok.mp hr).2]; rfl⟩
  · rintro ⟨b, args, hm, hb, hargs, rfl⟩
    exact ⟨_, _, ⟨_, .inr ⟨b, args, hm, hb, hargs, rfl⟩, rfl⟩,
      Rule.ofClauses_eq_ok.mpr ⟨by simp [Clause.step?], rfl⟩, rfl⟩

/-- What is neither a name nor an array that begins with one stands for no rule. -/
theorem asRule_of_not_isRuleData {options : Options} {site : Site} {v : Json} (h : v.isRuleData = false) :
    v.asRule options site = .error (.unknownValidator site.field v.text) := by
  unfold asRule
  split <;> first | rfl | simp [isRuleData] at h

end Json

/-! ## Names and flags -/

theorem Declaration.field_of_rule {options : Options} {site : Site} {d : Declaration} {r : Rule}
    (h : d.rule options site = .ok r) : r.field = site.field := by
  obtain ⟨cs, _, hr⟩ := Declaration.rule_eq_ok.mp h
  rw [(Rule.ofClauses_eq_ok.mp hr).2]

/-- A modifier is among the clauses of a declaration that carries it. -/
theorem Declaration.any_isModifier_of_clauses {options : Options} {site : Site} {d : Declaration} {cs : List Clause}
    (h : d.tokens.mapM (Token.clause options site) = .ok cs) (m : Modifier) :
    cs.any (Clause.isModifier m) = d.carries m := by
  refine any_of_mapM (fun t _ c hc => ?_) h
  rw [Clause.isModifier_eq, Token.modifier?_of_clause hc]

/-- The flags of a rule are the modifiers of its declaration. -/
theorem Declaration.flags_of_rule {options : Options} {site : Site} {d : Declaration} {r : Rule}
    (h : d.rule options site = .ok r) :
    r.optional = d.carries .optional ∧ r.optionalOrNull = d.carries .optionalOrNull := by
  obtain ⟨cs, hcs, hr⟩ := Declaration.rule_eq_ok.mp h
  have flags := Declaration.any_isModifier_of_clauses (mapM_eq_ok.mpr hcs)
  rw [(Rule.ofClauses_eq_ok.mp hr).2]
  exact ⟨flags _, flags _⟩

/-- The steps of a rule are labelled as the tokens of its declaration that are no modifiers, in order. -/
theorem Declaration.labels_of_rule {options : Options} {site : Site} {d : Declaration} {r : Rule}
    (h : d.rule options site = .ok r) : r.steps.map Step.label = d.labels := by
  obtain ⟨cs, hcs, hr⟩ := Declaration.rule_eq_ok.mp h
  rw [(Rule.ofClauses_eq_ok.mp hr).2]
  clear hr
  unfold Declaration.labels
  generalize d.tokens = ts at hcs
  induction hcs with
  | nil => rfl
  | @cons t c ts cs hc _ ih =>
    rw [List.filter_cons, ← Token.modifier?_of_clause hc]
    cases c with
    | modifier m => exact ih
    | step s =>
      simp only [Clause.modifier?, Option.isNone_none, if_true, List.map_cons, ← Token.label_of_clause hc, ← ih]
      rfl

/-- The rules of a specification are named as its fields, in order. -/
theorem Specification.fields_of_rulesAt {options : Options} {depth : Nat} {s : Specification} {rules : List Rule}
    (h : s.rulesAt options depth = .ok rules) : rules.map Rule.field = s.names := by
  have compiled := mapM_eq_ok.mpr (Specification.rulesAt_eq_ok.mp h)
  exact map_of_mapM (fun f _ r hr => Declaration.field_of_rule hr) compiled

theorem Specification.fields_of_compile {s : Specification} {options : Options} {V : Validator}
    (h : s.compile options = .ok V) : V.fields = s.names := by
  obtain ⟨rules, hr, rfl⟩ := Specification.compile_eq_ok.mp h
  exact Specification.fields_of_rulesAt hr

end BodySpec
