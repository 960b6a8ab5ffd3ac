import BodySpec.Clause
import BodySpec.Validator

/-!
# The rules of a specification

Names are looked up, modifiers become flags, and nested rules and specifications become checks. The first fault is
reported, fields in order, tokens in order, parameters in order; a name before its parameters, the depth of a nested
rule before its content, and a rule without steps at its end. A plain value stands for a rule where the validator wants
one: a name, or an array of a name and plain arguments.
-/

namespace BodySpec

/-! ## Rules written as data -/

namespace Json

mutual

/-- The rule that a value stands for. -/
def asRule (options : Options) (site : Site) : Json → Except Fault (Argument Check)
  | .string name =>
    site.enter options fun site =>
      site.ruleArgument options do
        let clause ← Clause.ofName site.field name true fun _ => .ok []
        return [clause]
  | .array (.string name :: params) =>
    site.enter options fun site =>
      site.ruleArgument options do
        let clause ← Clause.ofName site.field name params.isEmpty fun wantsRules =>
          if wantsRules then asRules options site params else .ok (params.map .value)
        return [clause]
  | v => .error (.unknownValidator site.field v.text)

def asRules (options : Options) (site : Site) : List Json → Except Fault (List (Argument Check))
  | [] => .ok []
  | v :: vs => do
    let arg ← asRule options site v
    let args ← asRules options site vs
    return arg :: args

end

end Json

/-! ## Specifications -/

mutual

def Token.clause (options : Options) (site : Site) : Token → Except Fault Clause
  | .modifier m => .ok (.modifier m)
  | .predicate p => .ok (.step { routine := .custom p, args := [] })
  | .name name => Clause.ofName site.field name true fun _ => .ok []
  | .step (.name name) params =>
    Clause.ofName site.field name params.isEmpty fun wantsRules => Parameter.arguments options site wantsRules params
  | .step (.predicate p) params => do
    let args ← Parameter.arguments options site false params
    return .step { routine := .custom p, args }

def Token.clauses (options : Options) (site : Site) : List Token → Except Fault (List Clause)
  | [] => .ok []
  | t :: ts => do
    let clause ← t.clause options site
    let clauses ← Token.clauses options site ts
    return clause :: clauses

def Parameter.argument (options : Options) (site : Site) (wantsRules : Bool) :
    Parameter → Except Fault (Argument Check)
  | .value v => if wantsRules then v.asRule options site else .ok (.value v)
  | .rule d => site.enter options fun site => site.ruleArgument options (d.clauses options site)
  | .spec s =>
    site.enter options fun inner =>
      match s.rulesAt options inner.depth with
      | .ok rules => .ok (.rule (Validator.validate { rules, strict := false, observer := options.observer }))
      | .error e => .error (e.within site.field)

def Parameter.arguments (options : Options) (site : Site) (wantsRules : Bool) :
    List Parameter → Except Fault (List (Argument Check))
  | [] => .ok []
  | p :: ps => do
    let arg ← p.argument options site wantsRules
    let args ← Parameter.arguments options site wantsRules ps
    return arg :: args

def Declaration.clauses (options : Options) (site : Site) : Declaration → Except Fault (List Clause)
  | .ofTokens ts => Token.clauses options site ts

def Specification.rulesAt (options : Options) (depth : Nat) : Specification → Except Fault (List Rule)
  | .ofFields fs => Specification.rulesOf options depth fs

def Specification.rulesOf (options : Options) (depth : Nat) :
    List (String × Declaration) → Except Fault (List Rule)
  | [] => .ok []
  | (field, d) :: fs => do
    let clauses ← d.clauses options { field, depth }
    let rule ← Rule.ofClauses field clauses
    let rules ← Specification.rulesOf options depth fs
    return rule :: rules

end

namespace Specification

/-- The rules of the fields, in the order of their declarations. -/
def rules (s : Specification) (options : Options) : Except Fault (List Rule) := s.rulesAt options 0

/-- The validator of a specification. -/
def compile (s : Specification) (options : Options) : Except Fault Validator := do
  let rules ← s.rules options
  return { rules, strict := options.strict, observer := options.observer }

end Specification

end BodySpec
