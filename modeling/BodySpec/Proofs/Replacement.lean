import BodySpec.Proofs.Resolution
import Mathlib.Logic.Relation

/-!
# Declarations that take each other's place

Two declarations can take each other's place if they become the same rule, or have the same fault, wherever they stand
(`Declaration.SameRule`). Compilation takes the elements of a list one by one and sees nothing but the outcome of each,
so what encloses the place has the same outcome too: a parameter, a step, a declaration and a specification
(`Parameter.sameArgument_rule`, `Parameter.sameArgument_spec`, `Token.sameClause_step`, `Declaration.sameRule_of_token`,
`Specification.sameRules_of_field`).

`Specification.Replaced R` is one replacement, at any depth, of a declaration by one that is related to it by `R`, and
`Specification.Interchanged R` any number of them, to and fro. If related declarations have the same rule, interchanged
specifications have the same outcome (`Specification.sameRules_of_interchanged`).
-/

namespace BodySpec

/-! ## Replacements -/

mutual

/-- A declaration is replaced, or something in a parameter of one of its steps. -/
inductive Declaration.Replaced (R : Declaration → Declaration → Prop) : Declaration → Declaration → Prop
  | here {d e : Declaration} (h : R d e) : Declaration.Replaced R d e
  | inside {p q : Parameter} (h : Parameter.Replaced R p q) (tokens tokens' : List Token) (head : Head)
      (params params' : List Parameter) :
      Declaration.Replaced R
        (.ofTokens (tokens ++ .step head (params ++ p :: params') :: tokens'))
        (.ofTokens (tokens ++ .step head (params ++ q :: params') :: tokens'))

inductive Parameter.Replaced (R : Declaration → Declaration → Prop) : Parameter → Parameter → Prop
  | rule {d e : Declaration} (h : Declaration.Replaced R d e) : Parameter.Replaced R (.rule d) (.rule e)
  | spec {s t : Specification} (h : Specification.Replaced R s t) : Parameter.Replaced R (.spec s) (.spec t)

/-- A declaration in a specification is replaced: that of a field, or one nested in it at any depth. -/
inductive Specification.Replaced (R : Declaration → Declaration → Prop) : Specification → Specification → Prop
  | field {d e : Declaration} (h : Declaration.Replaced R d e) (fields fields' : List (String × Declaration))
      (name : String) :
      Specification.Replaced R (.ofFields (fields ++ (name, d) :: fields')) (.ofFields (fields ++ (name, e) :: fields'))

end

/-- Any number of declarations are replaced, one after another, by related ones or by ones they are related to. -/
abbrev Specification.Interchanged (R : Declaration → Declaration → Prop) :
    Specification → Specification → Prop :=
  Relation.EqvGen (Specification.Replaced R)

/-! ## The same outcome -/

/-- The tokens become the same clause, wherever they stand, or have the same fault. -/
def Token.SameClause (t u : Token) : Prop :=
  ∀ (options : Options) (site : Site), t.clause options site = u.clause options site

/-- The parameters become the same argument, of a step that takes plain values for rules or does not. -/
def Parameter.SameArgument (wantsRules : Bool) (p q : Parameter) : Prop :=
  ∀ (options : Options) (site : Site), p.argument options site wantsRules = q.argument options site wantsRules

def Declaration.SameRule (d e : Declaration) : Prop :=
  ∀ (options : Options) (site : Site), d.rule options site = e.rule options site

def Specification.SameRules (s t : Specification) : Prop :=
  ∀ (options : Options) (depth : Nat), s.rulesAt options depth = t.rulesAt options depth

/-- Whether a step takes plain values for rules. -/
def Head.wantsRules : Head → Bool
  | .name n => n = "every"
  | .predicate _ => false

/-- Outcomes over a list, of which one element is replaced by another with the same outcome. -/
theorem mapM_replace {α β : Type} {f : α → Except Fault β} {x y : α} (h : f x = f y) (before after : List α) :
    (before ++ x :: after).mapM f = (before ++ y :: after).mapM f := by
  rw [List.mapM_append, List.mapM_append, List.mapM_cons, List.mapM_cons, h]

/-- A name has the same clause if its validator has the same arguments. -/
theorem Clause.ofName_congr {field n : String} {bare : Bool}
    {arguments arguments' : Bool → Except Fault (List (Argument Check))}
    (h : arguments (n = "every") = arguments' (n = "every")) :
    Clause.ofName field n bare arguments = Clause.ofName field n bare arguments' := by
  unfold Clause.ofName
  cases Modifier.ofName? n with
  | some m => rfl
  | none =>
    cases hb : Builtin.ofName? n with
    | none => rfl
    | some b =>
      rw [← Builtin.wantsRules_of_ofName? hb] at h
      exact congrArg (· >>= _) h

/-! ## What encloses a replaced declaration -/

/-- A nested declaration becomes the check of its rule. -/
theorem Parameter.argument_rule (options : Options) (site : Site) (wantsRules : Bool) (d : Declaration) :
    (Parameter.rule d).argument options site wantsRules =
      site.enter options fun site => do
        let rule ← d.rule options site
        return .rule (rule.toCheck options.observer) := by
  rw [Parameter.argument]
  refine congrArg (site.enter options) (funext fun inner => ?_)
  rw [Site.ruleArgument, Declaration.rule, bind_assoc]

theorem Parameter.sameArgument_rule {d e : Declaration} (h : d.SameRule e) (wantsRules : Bool) :
    Parameter.SameArgument wantsRules (.rule d) (.rule e) := by
  intro options site
  rw [Parameter.argument_rule, Parameter.argument_rule]
  exact congrArg (site.enter options) (funext fun inner => by rw [h options inner])

theorem Parameter.sameArgument_spec {s t : Specification} (h : s.SameRules t) (wantsRules : Bool) :
    Parameter.SameArgument wantsRules (.spec s) (.spec t) := by
  intro options site
  rw [Parameter.argument, Parameter.argument]
  exact congrArg (site.enter options) (funext fun inner => by rw [h options inner.depth])

/-- A step of which one parameter is replaced. -/
theorem Token.sameClause_step {head : Head} {p q : Parameter} (h : p.SameArgument head.wantsRules q)
    (params params' : List Parameter) :
    Token.SameClause (.step head (params ++ p :: params')) (.step head (params ++ q :: params')) := by
  intro options site
  have arguments : Parameter.arguments options site head.wantsRules (params ++ p :: params') =
      Parameter.arguments options site head.wantsRules (params ++ q :: params') := by
    rw [Parameter.arguments_eq, Parameter.arguments_eq]
    exact mapM_replace (h options site) params params'
  cases head with
  | name n =>
    have bare : (params ++ p :: params').isEmpty = (params ++ q :: params').isEmpty := by cases params <;> rfl
    rw [Token.clause, Token.clause, bare]
    exact Clause.ofName_congr arguments
  | predicate c =>
    rw [Token.clause, Token.clause]
    exact congrArg (· >>= _) arguments

/-- A declaration of which one token is replaced. -/
theorem Declaration.sameRule_of_token {t u : Token} (h : t.SameClause u) (before after : List Token) :
    (Declaration.ofTokens (before ++ t :: after)).SameRule (.ofTokens (before ++ u :: after)) := by
  intro options site
  have clauses := mapM_replace (h options site) before after
  rw [Declaration.rule, Declaration.rule, Declaration.clauses, Declaration.clauses, Token.clauses_eq, Token.clauses_eq,
    clauses]

/-- A specification of which the declaration of one field is replaced. -/
theorem Specification.sameRules_of_field {d e : Declaration} (h : d.SameRule e)
    (before after : List (String × Declaration)) (name : String) :
    (Specification.ofFields (before ++ (name, d) :: after)).SameRules (.ofFields (before ++ (name, e) :: after)) := by
  intro options depth
  rw [Specification.rulesAt, Specification.rulesAt, Specification.rulesOf_eq, Specification.rulesOf_eq]
  exact mapM_replace (f := fun f : String × Declaration => f.2.rule options { field := f.1, depth })
    (h options { field := name, depth }) before after

/-! ## Replacements at any depth -/

section Replaced

variable {R : Declaration → Declaration → Prop}

mutual

theorem Declaration.Replaced.sameRule (hR : ∀ d e, R d e → d.SameRule e) {d e : Declaration} :
    Declaration.Replaced R d e → d.SameRule e
  | .here h => hR d e h
  | .inside h tokens tokens' head params params' =>
    Declaration.sameRule_of_token (Token.sameClause_step (h.sameArgument hR head.wantsRules) params params')
      tokens tokens'

theorem Parameter.Replaced.sameArgument (hR : ∀ d e, R d e → d.SameRule e) {p q : Parameter} (wantsRules : Bool) :
    Parameter.Replaced R p q → p.SameArgument wantsRules q
  | .rule h => Parameter.sameArgument_rule (h.sameRule hR) wantsRules
  | .spec h => Parameter.sameArgument_spec (h.sameRules hR) wantsRules

theorem Specification.Replaced.sameRules (hR : ∀ d e, R d e → d.SameRule e) {s t : Specification} :
    Specification.Replaced R s t → s.SameRules t
  | .field h fields fields' name => Specification.sameRules_of_field (h.sameRule hR) fields fields' name

end

/-- **Declarations with the same rule take each other's place**, in any number of places and at any depth. -/
theorem Specification.sameRules_of_interchanged (hR : ∀ d e, R d e → d.SameRule e) {s t : Specification}
    (h : s.Interchanged R t) : s.SameRules t := by
  induction h with
  | rel s t replaced => exact replaced.sameRules hR
  | refl s => exact fun _ _ => rfl
  | symm s t _ ih => exact fun options depth => (ih options depth).symm
  | trans s t u _ _ first second => exact fun options depth => (first options depth).trans (second options depth)

theorem Specification.SameRules.compile_eq {s t : Specification} (h : s.SameRules t) (options : Options) :
    s.compile options = t.compile options := by
  rw [Specification.compile, Specification.compile, Specification.rules, Specification.rules, h options 0]

end Replaced

end BodySpec
