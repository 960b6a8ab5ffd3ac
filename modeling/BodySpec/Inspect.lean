import BodySpec.Guard
import BodySpec.Specification.Basic
import BodySpec.Text.Shown

/-!
# Values shown for inspection

The shown forms of JSON values, specifications, rules, validators, guards, options and faults, in which every part is
named. Of a predicate only its label is shown, of a nested check nothing, and of an observer only whether there is one.
The library shows its version, too.
-/

namespace BodySpec

/-- The version of the library. -/
def version : String := "0.5.0"

open Text

/-! ## JSON values -/

mutual

def Json.shown : Json → String
  | .null => "Null"
  | .bool b => showTuple "Bool" [showBool b]
  | .number n => showTuple "Number" [n.text]
  | .string s => showTuple "String" [showString s]
  | .array items => "Array " ++ showList (Json.shownItems items)
  | .object members => "Object \x7b" ++ ", ".intercalate (Json.shownMembers members) ++ "\x7d"

def Json.shownItems : List Json → List String
  | [] => []
  | v :: vs => v.shown :: Json.shownItems vs

def Json.shownMembers : List (String × Json) → List String
  | [] => []
  | (k, v) :: ms => (showString k ++ ": " ++ v.shown) :: Json.shownMembers ms

end

/-! ## Specifications -/

def Modifier.shown : Modifier → String
  | .optional => "Optional"
  | .optionalOrNull => "OptionalOrNull"

def Predicate.shown (p : Predicate) : String := showTuple "Predicate" [showString p.label]

def Head.shown : Head → String
  | .name n => showTuple "Name" [showString n]
  | .predicate p => showTuple "Predicate" [p.shown]

mutual

def Token.shown : Token → String
  | .name n => showTuple "Name" [showString n]
  | .predicate p => showTuple "Predicate" [p.shown]
  | .step head params =>
    showRecord "Parameterized" [("head", head.shown), ("params", showList (Parameter.shownAll params))]
  | .modifier m => showTuple "Modifier" [m.shown]

def Token.shownAll : List Token → List String
  | [] => []
  | t :: ts => t.shown :: Token.shownAll ts

def Parameter.shown : Parameter → String
  | .value v => showTuple "Value" [v.shown]
  | .rule d => showTuple "Rule" [d.shown]
  | .spec s => showTuple "Spec" [s.shown]

def Parameter.shownAll : List Parameter → List String
  | [] => []
  | p :: ps => p.shown :: Parameter.shownAll ps

def Declaration.shown : Declaration → String
  | .ofTokens ts => showRecord "Declaration" [("tokens", showList (Token.shownAll ts))]

def Specification.shown : Specification → String
  | .ofFields fs => showRecord "Specification" [("fields", showList (Specification.shownFields fs))]

def Specification.shownFields : List (String × Declaration) → List String
  | [] => []
  | (name, d) :: fs => showTuple "" [showString name, d.shown] :: Specification.shownFields fs

end

/-! ## Validators and guards -/

def Argument.shown {ρ : Type} : Argument ρ → String
  | .value v => showTuple "Value" [v.shown]
  | .rule _ => showTuple "Check" [showTuple "Check" [".."]]

def Step.shown (s : Step) : String :=
  showRecord "Step" [("label", showString s.label), ("args", showList (s.args.map Argument.shown))]

def Rule.shown (r : Rule) : String :=
  showRecord "FieldRule"
    [("field", showString r.field), ("steps", showList (r.steps.map Step.shown)), ("optional", showBool r.optional),
      ("optional_or_null", showBool r.optionalOrNull)]

def Validator.shown (V : Validator) : String :=
  showRecord "CompiledValidator"
    [("rules", showList (V.rules.map Rule.shown)), ("strict", showBool V.strict),
      ("observer", showBool V.observer.isSome)]

def Limits.shown (l : Limits) : String :=
  showRecord "BodyValidationConfig" [(Limits.key, toString l.maxBodySize)]

def Guard.shown (g : Guard) : String :=
  showRecord "BodyValidator" [("validator", g.validator.shown), ("config", g.limits.shown)]

def Options.shown (o : Options) : String :=
  showRecord "CompileOptions"
    [("strict", showBool o.strict), ("max_depth", toString o.maxDepth), ("observer", showBool o.observer.isSome)]

def Fault.shown : Fault → String
  | .unknownValidator f t => showRecord "UnknownValidator" [("field", showString f), ("token", showString t)]
  | .emptyRule f => showRecord "EmptyRule" [("field", showString f)]
  | .nestingTooDeep f l => showRecord "NestingTooDeep" [("field", showString f), ("limit", toString l)]

end BodySpec
