import BodySpec.Specification.Basic

/-!
# Induction over specifications

Tokens, parameters, declarations and specifications contain each other through lists. A proof about all of them is one
case for each constructor, with the claim for every member of its list as hypothesis: `Specification.Cases` names the
cases, and `Cases.token`, `Cases.parameter`, `Cases.declaration` and `Cases.specification` conclude. Values that stand
for rules are walked in the same way (`Json.rule_induction`).

What a specification says without being compiled is read off its tokens here: the modifier that a token spells
(`Token.modifier?`), the modifiers of a declaration (`Declaration.carries`) and all predicates in it
(`Specification.predicates`).
-/

namespace BodySpec

/-! ## Induction -/

/-- The cases of an induction over specifications. -/
structure Specification.Cases (T : Token → Prop) (P : Parameter → Prop) (D : Declaration → Prop)
    (S : Specification → Prop) : Prop where
  name : ∀ n, T (.name n)
  predicate : ∀ p, T (.predicate p)
  named : ∀ n ps, (∀ p ∈ ps, P p) → T (.step (.name n) ps)
  inline : ∀ q ps, (∀ p ∈ ps, P p) → T (.step (.predicate q) ps)
  modifier : ∀ m, T (.modifier m)
  value : ∀ v, P (.value v)
  rule : ∀ d, D d → P (.rule d)
  spec : ∀ s, S s → P (.spec s)
  tokens : ∀ ts, (∀ t ∈ ts, T t) → D (.ofTokens ts)
  fields : ∀ fs : List (String × Declaration), (∀ f ∈ fs, D f.2) → S (.ofFields fs)

namespace Specification.Cases

variable {T : Token → Prop} {P : Parameter → Prop} {D : Declaration → Prop} {S : Specification → Prop}

mutual

theorem token (h : Cases T P D S) : ∀ t, T t
  | .name n => h.name n
  | .predicate p => h.predicate p
  | .step (.name n) ps => h.named n ps (parameters h ps)
  | .step (.predicate q) ps => h.inline q ps (parameters h ps)
  | .modifier m => h.modifier m

theorem tokenList (h : Cases T P D S) : ∀ ts : List Token, ∀ t ∈ ts, T t
  | [] => fun _ ht => by cases ht
  | t :: ts => List.forall_mem_cons.mpr ⟨token h t, tokenList h ts⟩

theorem parameter (h : Cases T P D S) : ∀ p, P p
  | .value v => h.value v
  | .rule d => h.rule d (declaration h d)
  | .spec s => h.spec s (specification h s)

theorem parameters (h : Cases T P D S) : ∀ ps : List Parameter, ∀ p ∈ ps, P p
  | [] => fun _ hp => by cases hp
  | p :: ps => List.forall_mem_cons.mpr ⟨parameter h p, parameters h ps⟩

theorem declaration (h : Cases T P D S) : ∀ d, D d
  | .ofTokens ts => h.tokens ts (tokenList h ts)

theorem specification (h : Cases T P D S) : ∀ s, S s
  | .ofFields fs => h.fields fs (fieldList h fs)

theorem fieldList (h : Cases T P D S) : ∀ fs : List (String × Declaration), ∀ f ∈ fs, D f.2
  | [] => fun _ hf => by cases hf
  | (_, d) :: fs => List.forall_mem_cons.mpr ⟨declaration h d, fieldList h fs⟩

end

end Specification.Cases

namespace Json

/-- Whether a value has the form of a rule: a name, or an array that begins with one. -/
def isRuleData : Json → Bool
  | string _ => true
  | array (string _ :: _) => true
  | _ => false

mutual

/-- Induction over values that stand for rules: a name, a name with parameters, or neither. -/
theorem rule_induction {R : Json → Prop} (name : ∀ n, R (.string n))
    (step : ∀ n ps, (∀ p ∈ ps, R p) → R (.array (.string n :: ps)))
    (other : ∀ v, v.isRuleData = false → R v) : ∀ v, R v
  | .string n => name n
  | .array (.string n :: ps) => step n ps (rule_inductionList name step other ps)
  | .null => other _ rfl
  | .bool _ => other _ rfl
  | .number _ => other _ rfl
  | .object _ => other _ rfl
  | .array [] => other _ rfl
  | .array (.null :: _) => other _ rfl
  | .array (.bool _ :: _) => other _ rfl
  | .array (.number _ :: _) => other _ rfl
  | .array (.array _ :: _) => other _ rfl
  | .array (.object _ :: _) => other _ rfl

theorem rule_inductionList {R : Json → Prop} (name : ∀ n, R (.string n))
    (step : ∀ n ps, (∀ p ∈ ps, R p) → R (.array (.string n :: ps)))
    (other : ∀ v, v.isRuleData = false → R v) : ∀ vs : List Json, ∀ v ∈ vs, R v
  | [] => fun _ hv => by cases hv
  | v :: vs => List.forall_mem_cons.mpr
    ⟨rule_induction name step other v, rule_inductionList name step other vs⟩

end

end Json

/-! ## Modifiers -/

/-- The modifier that a token spells: as a modifier, as a name, or as a step of that name without parameters. -/
def Token.modifier? : Token → Option Modifier
  | .modifier m => some m
  | .name n => Modifier.ofName? n
  | .step (.name n) [] => Modifier.ofName? n
  | _ => none

/-- Whether a declaration carries a modifier, in any spelling. -/
def Declaration.carries (m : Modifier) (d : Declaration) : Bool := d.tokens.any fun t => t.modifier? == some m

/-! ## Labels -/

/-- What notices call a token by: its name or the label of its predicate. -/
def Token.label : Token → String
  | .name n => n
  | .predicate p => p.label
  | .step (.name n) _ => n
  | .step (.predicate p) _ => p.label
  | .modifier m => m.name

/-- The labels of the tokens that are no modifiers. -/
def Declaration.labels (d : Declaration) : List String :=
  (d.tokens.filter fun t => t.modifier?.isNone).map Token.label

/-! ## Predicates -/

mutual

def Token.predicates : Token → List Predicate
  | .name _ => []
  | .predicate p => [p]
  | .step (.name _) ps => Parameter.allPredicates ps
  | .step (.predicate p) ps => p :: Parameter.allPredicates ps
  | .modifier _ => []

def Token.allPredicates : List Token → List Predicate
  | [] => []
  | t :: ts => t.predicates ++ Token.allPredicates ts

def Parameter.predicates : Parameter → List Predicate
  | .value _ => []
  | .rule d => d.predicates
  | .spec s => s.predicates

def Parameter.allPredicates : List Parameter → List Predicate
  | [] => []
  | p :: ps => p.predicates ++ Parameter.allPredicates ps

def Declaration.predicates : Declaration → List Predicate
  | .ofTokens ts => Token.allPredicates ts

/-- The predicates in a specification, at any depth. -/
def Specification.predicates : Specification → List Predicate
  | .ofFields fs => Specification.allPredicates fs

def Specification.allPredicates : List (String × Declaration) → List Predicate
  | [] => []
  | (_, d) :: fs => d.predicates ++ Specification.allPredicates fs

end

theorem Token.allPredicates_eq (ts : List Token) : Token.allPredicates ts = ts.flatMap Token.predicates := by
  induction ts with
  | nil => rfl
  | cons t ts ih => rw [Token.allPredicates, List.flatMap_cons, ih]

theorem Parameter.allPredicates_eq (ps : List Parameter) :
    Parameter.allPredicates ps = ps.flatMap Parameter.predicates := by
  induction ps with
  | nil => rfl
  | cons p ps ih => rw [Parameter.allPredicates, List.flatMap_cons, ih]

theorem Specification.allPredicates_eq (fs : List (String × Declaration)) :
    Specification.allPredicates fs = fs.flatMap fun f => f.2.predicates := by
  induction fs with
  | nil => rfl
  | cons f fs ih => rw [Specification.allPredicates, List.flatMap_cons, ih]

end BodySpec
