import BodySpec.Proofs.Syntax
import BodySpec.Builtin.Judgement

/-!
# What a specification says

The meaning of a specification, read off its tokens without compiling it. A body is an object each of whose declared
fields is allowed by its declaration (`Specification.accepts_iff`): absent where the declaration carries `optional`,
null where it carries `optionalOrNull`, or a value of which every token holds that is no modifier
(`Declaration.allows_iff`). A nested declaration judges a value as its own body; a nested specification judges it as a
body of its own, and never looks for keys that are not declared.

The meaning of a parameter is the argument that its step sees, with a nested rule as the set of values that satisfy it.
-/

namespace BodySpec

/-! ## Validators and predicates -/

namespace Judgement

/-- What the nested rule at a position says of a value; what is no rule says no. -/
def answer (args : List (Argument (Json → Bool))) (position : Nat) (v : Json) : Bool :=
  (args[position]?.bind Argument.rule?).getD (fun _ => false) v

/-- The verdict, given what the nested rules among the arguments say. -/
def decide (args : List (Argument (Json → Bool))) : Judgement → Bool
  | verdict holds => holds
  | consult position v next => (next (answer args position v)).decide args

end Judgement

/-- What a predicate says of a value in a context. -/
def Predicate.holds (p : Predicate) (args : List (Argument (Json → Bool))) (context : Context) (v : Json) : Bool :=
  (p.judge v (args.map Argument.erase) context).decide args

/-- What a built-in validator says of a value: `every` that it is an array each of whose items satisfies the first
argument, any other what its judgement says. -/
def Builtin.passes (b : Builtin) (args : List (Argument (Json → Bool))) (v : Json) : Bool :=
  match b with
  | .every =>
    match v, args with
    | .array items, .rule satisfies :: _ => items.all satisfies
    | _, _ => false
  | b => b.holds v (args.map Argument.erase)

/-- What the validator of a name says of a value. -/
def Builtin.passesNamed (name : String) (args : List (Argument (Json → Bool))) (v : Json) : Bool :=
  (Builtin.ofName? name).any fun b => b.passes args v

/-! ## Rules written as data -/

namespace Json

mutual

/-- What a value that stands for a rule says: a name, or a name with parameters, which stand for rules under `every`. -/
def rulePasses : Json → Json → Bool
  | string name, v => Builtin.passesNamed name [] v
  | array (string name :: params), v =>
    Builtin.passesNamed name (if name = "every" then rulesPass params else params.map .value) v
  | _, _ => false

def rulesPass : List Json → List (Argument (Json → Bool))
  | [] => []
  | v :: vs => .rule v.rulePasses :: rulesPass vs

end

theorem rulesPass_eq (vs : List Json) : rulesPass vs = vs.map fun v => .rule v.rulePasses := by
  induction vs with
  | nil => rfl
  | cons v vs ih => rw [rulesPass, List.map_cons, ih]

theorem rulePasses_string (n : String) : (string n).rulePasses = (array [string n]).rulePasses := by
  funext v
  simp only [rulePasses, rulesPass, List.map_nil, ite_self]

/-- The keys of an object. -/
def keys : Json → List String
  | object members => Members.keys members
  | _ => []

end Json

/-! ## Specifications -/

mutual

/-- What a token says of the value of a field; a modifier says nothing. -/
def Token.holds (context : Context) (v : Json) : Token → Bool
  | .modifier _ => true
  | .name name => Builtin.passesNamed name [] v
  | .predicate p => p.holds [] context v
  | .step (.name name) ps => Builtin.passesNamed name (Parameter.meanings context.field (name = "every") ps) v
  | .step (.predicate p) ps => p.holds (Parameter.meanings context.field false ps) context v

/-- Whether all tokens hold that are no modifiers. -/
def Token.allHold (context : Context) (v : Json) : List Token → Bool
  | [] => true
  | t :: ts => (t.modifier?.isSome || t.holds context v) && Token.allHold context v ts

/-- The argument that a step sees, where plain values may stand for rules. -/
def Parameter.meaning (field : String) (dataAsRules : Bool) : Parameter → Argument (Json → Bool)
  | .value v => if dataAsRules then .rule v.rulePasses else .value v
  | .rule d => .rule fun v => d.allows { body := v, field } (some v)
  | .spec s => .rule s.accepts

def Parameter.meanings (field : String) (dataAsRules : Bool) : List Parameter → List (Argument (Json → Bool))
  | [] => []
  | p :: ps => p.meaning field dataAsRules :: Parameter.meanings field dataAsRules ps

/-- Whether a declaration allows the value of a field, which is none if the field is absent. -/
def Declaration.allows (context : Context) : Declaration → Option Json → Bool
  | .ofTokens ts, none => (Declaration.ofTokens ts).carries .optional
  | .ofTokens ts, some v =>
    (v.isNull && (Declaration.ofTokens ts).carries .optionalOrNull) || Token.allHold context v ts

/-- Whether a body is an object of which the declarations of all fields hold; other keys do not matter. -/
def Specification.accepts : Specification → Json → Bool
  | .ofFields fs, .object members => Specification.allAllow (.object members) fs
  | _, _ => false

def Specification.allAllow (body : Json) : List (String × Declaration) → Bool
  | [] => true
  | (field, d) :: fs => d.allows { body, field } (body.get? field) && Specification.allAllow body fs

end

/-! ## Readings -/

theorem Token.allHold_eq (context : Context) (v : Json) (ts : List Token) :
    Token.allHold context v ts = ts.all fun t => t.modifier?.isSome || t.holds context v := by
  induction ts with
  | nil => rfl
  | cons t ts ih => rw [Token.allHold, List.all_cons, ih]

theorem Parameter.meanings_eq (field : String) (dataAsRules : Bool) (ps : List Parameter) :
    Parameter.meanings field dataAsRules ps = ps.map (Parameter.meaning field dataAsRules) := by
  induction ps with
  | nil => rfl
  | cons p ps ih => rw [Parameter.meanings, List.map_cons, ih]

theorem Specification.allAllow_eq (body : Json) (fs : List (String × Declaration)) :
    Specification.allAllow body fs = fs.all fun f => f.2.allows { body, field := f.1 } (body.get? f.1) := by
  induction fs with
  | nil => rfl
  | cons f fs ih => rw [Specification.allAllow, List.all_cons, ih]

theorem Json.isNull_iff {v : Json} : v.isNull = true ↔ v = .null := by
  cases v <;> simp [Json.isNull]

/-- A declaration allows a field that is absent and may be, or null and may be, or of which its tokens hold. -/
theorem Declaration.allows_iff (context : Context) (d : Declaration) (v : Option Json) :
    d.allows context v = true ↔
      (v = none ∧ d.carries .optional = true) ∨ (v = some .null ∧ d.carries .optionalOrNull = true) ∨
      ∃ w, v = some w ∧ ∀ t ∈ d.tokens, t.modifier? = none → t.holds context w = true := by
  obtain ⟨ts⟩ := d
  cases v with
  | none => simp [Declaration.allows]
  | some w =>
    simp only [Declaration.allows, Token.allHold_eq, Declaration.tokens, Bool.or_eq_true, Bool.and_eq_true,
      Json.isNull_iff, List.all_eq_true, reduceCtorEq, false_and, false_or, Option.some.injEq]
    constructor
    · rintro (h | h)
      · exact .inl h
      · exact .inr ⟨w, rfl, fun t ht hm => by simpa [hm] using h t ht⟩
    · rintro (h | ⟨_, rfl, h⟩)
      · exact .inl h
      · refine .inr fun t ht => ?_
        cases hm : t.modifier? with
        | some m => exact .inl rfl
        | none => exact .inr (h t ht hm)

/-- What a specification asks of a body: to be an object, in strict mode with the declared fields as its keys, and for
each field to be absent and optional, or null and optional or null, or a value of which every token holds that is no
modifier. -/
def Specification.SatisfiedBy (s : Specification) (strict : Bool) (body : Json) : Prop :=
  ∃ members : Json.Members, body = .object members ∧
    (strict = true → ∀ key, key ∈ members.keys ↔ key ∈ s.names) ∧
    ∀ f ∈ s.fields,
      (members.get? f.1 = none ∧ f.2.carries .optional = true) ∨
      (members.get? f.1 = some .null ∧ f.2.carries .optionalOrNull = true) ∨
      ∃ v, members.get? f.1 = some v ∧
        ∀ t ∈ f.2.tokens, t.modifier? = none → t.holds { body, field := f.1 } v = true

theorem Specification.accepts_eq (s : Specification) (members : Json.Members) :
    s.accepts (.object members) =
      s.fields.all fun f => f.2.allows { body := .object members, field := f.1 } (members.get? f.1) := by
  obtain ⟨fs⟩ := s
  rw [Specification.accepts, Specification.allAllow_eq]
  rfl

theorem Specification.accepts_eq_false {s : Specification} {body : Json} (h : ∀ members, body ≠ .object members) :
    s.accepts body = false := by
  obtain ⟨fs⟩ := s
  cases body with
  | object members => exact absurd rfl (h members)
  | _ => rfl

/-- A nested specification accepts a body that satisfies it; it is never strict. -/
theorem Specification.accepts_iff (s : Specification) (body : Json) :
    s.accepts body = true ↔ s.SatisfiedBy false body := by
  cases body with
  | object members =>
    rw [Specification.accepts_eq, List.all_eq_true]
    simp only [Declaration.allows_iff]
    constructor
    · intro h
      exact ⟨members, rfl, fun hs => (by cases hs), h⟩
    · rintro ⟨_, ⟨⟩, _, h⟩
      exact h
  | _ =>
    rw [Specification.accepts_eq_false (fun _ h => by cases h)]
    constructor
    · intro h; cases h
    · rintro ⟨_, h, _⟩; cases h

end BodySpec
