import BodySpec.Proofs.Calls
import Mathlib.Logic.Relation

/-!
# The contexts of predicates

A predicate is told the body that is checked and the name of the field. Which these are is said by a walk from a body
down into a specification. A `Visit` puts a declaration to a value: that of a field to the value that an object has
there (`Visit.OfField`), and a nested rule to the items of an array under `every`, or to a value that a predicate asks
about (`Visit.Step`). A nested specification begins anew at the fields of the value.

Every call is made at a visit (`Specification.callsVisited_cases`), and its context is that of the visit. So the field
is always a key of the object that the innermost specification judges, but the body is that object only where no rule is
in between: a nested rule is told the value itself (`Specification.context_of_call`).
-/

namespace BodySpec

/-! ## Questions -/

/-- The questions that a judgement puts to nested rules, in order, given what they say. -/
def Judgement.questions (args : List (Argument (Json → Bool))) : Judgement → List (Nat × Json)
  | verdict _ => []
  | consult position v next => (position, v) :: (next (answer args position v)).questions args

/-- A judgement calls what its questions call. -/
theorem Judgement.calls_eq_questions (args : List (Argument (Json → Bool))) (called : List (Json → List Call))
    (j : Judgement) :
    j.calls args called = (j.questions args).flatMap fun q => (called[q.1]?.getD fun _ => []) q.2 := by
  induction j with
  | verdict holds => rfl
  | consult position v next ih => rw [calls, questions, List.flatMap_cons, ih]

/-- The call that a token makes itself, if it is one of a predicate. -/
def Token.call? (context : Context) (v : Json) : Token → Option Call
  | .predicate p => some { predicate := p, value := v, args := [], context }
  | .step (.predicate p) ps =>
    some { predicate := p, value := v, args := (Parameter.meanings context.field false ps).map Argument.erase, context }
  | _ => none

theorem Token.context_of_call? {context : Context} {v : Json} {t : Token} {c : Call}
    (h : t.call? context v = some c) : c.value = v ∧ c.context = context := by
  rcases t with _ | p | ⟨_ | p, ps⟩ | _
  · cases h
  · cases h; exact ⟨rfl, rfl⟩
  · cases h
  · cases h; exact ⟨rfl, rfl⟩
  · cases h

/-! ## Visits -/

/-- A declaration that is put to a value, for a field of the object that the innermost specification judges. -/
structure Visit where
  object : Json
  field : String
  declaration : Declaration
  value : Json
  /-- Whether the declaration is a rule nested in that of the field. -/
  nested : Bool

namespace Visit

/-- What predicates are told at a visit. -/
def context (x : Visit) : Context := { body := if x.nested then x.value else x.object, field := x.field }

/-- The visits of the fields that an object has, by a specification that judges it. -/
inductive OfField (s : Specification) : Json → Visit → Prop where
  | intro {members : Json.Members} {field : String} {d : Declaration} {v : Json} (declared : (field, d) ∈ s.fields)
      (present : (Json.object members).get? field = some v) :
      OfField s (.object members) { object := .object members, field, declaration := d, value := v, nested := false }

/-- The values that a parameter in the declaration is put to. -/
inductive Asks (x : Visit) : Parameter → Json → Prop where
  | item {p : Parameter} {ps : List Parameter} {items : List Json} {w : Json}
      (token : .step (.name "every") (p :: ps) ∈ x.declaration.tokens) (array : x.value = .array items)
      (mem : w ∈ items) : x.Asks p w
  | question {q : Predicate} {p : Parameter} {ps : List Parameter} {position : Nat} {w : Json}
      (token : .step (.predicate q) ps ∈ x.declaration.tokens) (parameter : ps[position]? = some p)
      (asked : (position, w) ∈
        (q.judge x.value ((Parameter.meanings x.field false ps).map Argument.erase) x.context).questions
          (Parameter.meanings x.field false ps)) : x.Asks p w

/-- One step inwards: to a nested rule of the same field, or to a field of a nested specification. -/
inductive Step (x : Visit) : Visit → Prop where
  | rule {d : Declaration} {w : Json} (asks : x.Asks (.rule d) w) :
      x.Step { x with declaration := d, value := w, nested := true }
  | spec {s : Specification} {w : Json} {y : Visit} (asks : x.Asks (.spec s) w) (field : OfField s w y) : x.Step y

/-- Any number of steps inwards. -/
abbrev Reaches : Visit → Visit → Prop := Relation.ReflTransGen Step

/-- A token of the declaration makes the call. -/
def Makes (x : Visit) (c : Call) : Prop := ∃ t ∈ x.declaration.tokens, t.call? x.context x.value = some c

/-- The object is one, and has the field; its value there is the one visited, unless it is visited for a nested rule. -/
def InObject (x : Visit) : Prop :=
  ∃ members v, x.object = .object members ∧ x.object.get? x.field = some v ∧ (x.nested = false → x.value = v)

theorem OfField.inObject {s : Specification} {body : Json} {x : Visit} (h : OfField s body x) : x.InObject := by
  obtain ⟨_, present⟩ := h
  exact ⟨_, _, rfl, present, fun _ => rfl⟩

theorem Step.inObject {x y : Visit} (h : x.Step y) (hx : x.InObject) : y.InObject := by
  cases h with
  | rule _ =>
    obtain ⟨members, v, object, present, _⟩ := hx
    exact ⟨members, v, object, present, fun direct => by cases direct⟩
  | spec _ field => exact field.inObject

theorem Reaches.inObject {x y : Visit} (h : x.Reaches y) (hx : x.InObject) : y.InObject := by
  induction h with
  | refl => exact hx
  | tail _ step ih => exact step.inObject ih

end Visit

/-- The visits of a specification that judges a body. -/
def Specification.Visits (s : Specification) (body : Json) (y : Visit) : Prop :=
  ∃ x, Visit.OfField s body x ∧ x.Reaches y

theorem Specification.Visits.inObject {s : Specification} {body : Json} {x : Visit} (h : s.Visits body x) :
    x.InObject := by
  obtain ⟨_, first, reached⟩ := h
  exact reached.inObject first.inObject

/-! ## Calls are made at visits -/

theorem Builtin.exists_of_mem_everyCalls {v : Json} {args : List (Argument (Json → Bool))} {ps : List Parameter}
    {observed : Bool} {field : String} {c : Call}
    (h : c ∈ Builtin.everyCalls v args (Parameter.calls observed field ps)) :
    ∃ p rest items w, ps = p :: rest ∧ v = .array items ∧ w ∈ items ∧ c ∈ p.call observed field w := by
  unfold everyCalls at h
  split at h
  case h_1 items satisfies rest f fs hf =>
    cases ps with
    | nil => cases hf
    | cons p ps =>
      rw [Parameter.calls] at hf
      cases hf
      obtain ⟨w, hw, hc⟩ := List.mem_flatMap.mp h
      exact ⟨p, ps, items, w, rfl, rfl, mem_of_mem_throughFailing hw, hc⟩
  case h_2 => cases h

/-- Every call of a token is made at a visit that is reached from one of its declaration. -/
def Token.CallsVisited (t : Token) : Prop :=
  ∀ (observed : Bool) (x : Visit), t ∈ x.declaration.tokens → ∀ c ∈ t.calls observed x.context x.value,
    ∃ y, x.Reaches y ∧ y.Makes c

def Parameter.CallsVisited (p : Parameter) : Prop :=
  ∀ (observed : Bool) (x : Visit) (w : Json), x.Asks p w → ∀ c ∈ p.call observed x.field w,
    ∃ y, x.Reaches y ∧ y.Makes c

def Declaration.CallsVisited (d : Declaration) : Prop :=
  ∀ (observed : Bool) (x : Visit), x.declaration = d → ∀ c ∈ d.calls observed x.context (some x.value),
    ∃ y, x.Reaches y ∧ y.Makes c

def Specification.CallsVisited (s : Specification) : Prop :=
  ∀ (observed : Bool) (body : Json), ∀ c ∈ s.calls observed body, ∃ y, s.Visits body y ∧ y.Makes c

section Parameters

variable {ps : List Parameter}

theorem Token.callsVisited_named (n : String) (hps : ∀ p ∈ ps, p.CallsVisited) :
    (Token.step (.name n) ps).CallsVisited := by
  intro observed x ht c hc
  rw [Token.calls] at hc
  by_cases hn : n = "every"
  · subst hn
    rw [if_pos rfl] at hc
    obtain ⟨p, rest, items, w, rfl, array, mem, hc⟩ := Builtin.exists_of_mem_everyCalls hc
    exact hps p List.mem_cons_self observed x w (.item ht array mem) c hc
  · rw [if_neg hn] at hc
    cases hc

theorem Token.callsVisited_inline (q : Predicate) (hps : ∀ p ∈ ps, p.CallsVisited) :
    (Token.step (.predicate q) ps).CallsVisited := by
  intro observed x ht c hc
  rw [Token.calls] at hc
  rcases List.mem_cons.mp hc with rfl | hc
  · exact ⟨x, .refl, _, ht, rfl⟩
  · rw [Judgement.calls_eq_questions] at hc
    obtain ⟨⟨position, w⟩, asked, hc⟩ := List.mem_flatMap.mp hc
    rw [Parameter.calls_eq, List.getElem?_map] at hc
    cases hp : ps[position]? with
    | none => simp [hp] at hc
    | some p =>
      rw [hp] at hc
      exact hps p (List.mem_of_getElem? hp) observed x w (.question ht hp asked) c hc

end Parameters

theorem Parameter.callsVisited_rule {d : Declaration} (hd : d.CallsVisited) : (Parameter.rule d).CallsVisited := by
  intro observed x w asks c hc
  have step : x.Step { x with declaration := d, value := w, nested := true } := .rule asks
  obtain ⟨y, reached, makes⟩ := hd observed { x with declaration := d, value := w, nested := true } rfl c hc
  exact ⟨y, .head step reached, makes⟩

theorem Parameter.callsVisited_spec {s : Specification} (hs : s.CallsVisited) : (Parameter.spec s).CallsVisited := by
  intro observed x w asks c hc
  obtain ⟨z, ⟨y, field, reached⟩, makes⟩ := hs observed w c hc
  exact ⟨z, .head (.spec asks field) reached, makes⟩

theorem Declaration.callsVisited {ts : List Token} (hts : ∀ t ∈ ts, t.CallsVisited) :
    (Declaration.ofTokens ts).CallsVisited := by
  intro observed x hx c hc
  rw [Declaration.calls_eq] at hc
  dsimp only at hc
  split at hc
  · cases hc
  · obtain ⟨t, ht, hc⟩ := List.mem_flatMap.mp hc
    have mem : t ∈ ts := mem_of_mem_throughFailing ht
    exact hts t mem observed x (hx ▸ mem) c hc

theorem Specification.callsVisited {fs : List (String × Declaration)} (hfs : ∀ f ∈ fs, f.2.CallsVisited) :
    (Specification.ofFields fs).CallsVisited := by
  intro observed body c hc
  cases body with
  | object members =>
    rw [Specification.calls_eq] at hc
    obtain ⟨⟨field, d⟩, hf, hc⟩ := List.mem_flatMap.mp hc
    have declared : (field, d) ∈ fs := mem_of_mem_throughFailing hf
    cases present : Json.Members.get? members field with
    | none =>
      rw [present, Declaration.calls_eq] at hc
      cases hc
    | some v =>
      rw [present] at hc
      obtain ⟨y, reached, makes⟩ := hfs _ declared observed
        { object := .object members, field, declaration := d, value := v, nested := false } rfl c hc
      exact ⟨y, ⟨_, .intro declared present, reached⟩, makes⟩
  | _ => cases hc

theorem Specification.callsVisited_cases :
    Specification.Cases Token.CallsVisited Parameter.CallsVisited Declaration.CallsVisited
      Specification.CallsVisited where
  name _ _ _ _ _ hc := by cases hc
  predicate p _ x ht c hc := ⟨x, .refl, _, ht, (List.mem_singleton.mp hc) ▸ rfl⟩
  named n _ hps := Token.callsVisited_named n hps
  inline q _ hps := Token.callsVisited_inline q hps
  modifier _ _ _ _ _ hc := by cases hc
  value _ _ _ _ _ _ hc := by cases hc
  rule _ hd := Parameter.callsVisited_rule hd
  spec _ hs := Parameter.callsVisited_spec hs
  tokens _ hts := Declaration.callsVisited hts
  fields _ hfs := Specification.callsVisited hfs

/-! ## Validators -/

/-- The calls of a validator are made at visits of its specification. -/
theorem Specification.exists_visit_of_call {s : Specification} {options : Options} {V : Validator}
    (h : s.compile options = .ok V) {body : Json} {c : Call} (hc : c ∈ (V.validate body).calls) :
    ∃ x, s.Visits body x ∧ x.Makes c := by
  by_cases hk : V.Matches body
  · rw [Specification.calls_of_compile h hk] at hc
    exact Specification.callsVisited_cases.specification s options.observer.isSome body c hc
  · rw [Validator.calls_of_not_matches hk] at hc
    cases hc

/-- **A predicate is told its field, and the object only outside of nested rules.** Every call is made at a visit, about
the value visited. The field that the predicate is told is a key of the object that the innermost specification judges.
The body is that object if the predicate stands in the declaration of the field itself; in a nested rule it is the value
that the rule is put to. -/
theorem Specification.context_of_call {s : Specification} {options : Options} {V : Validator}
    (h : s.compile options = .ok V) {body : Json} {c : Call} (hc : c ∈ (V.validate body).calls) :
    ∃ x, s.Visits body x ∧ x.Makes c ∧ c.value = x.value ∧ c.context.field = x.field ∧ x.InObject ∧
      (x.nested = false → c.context.body = x.object) ∧ (x.nested = true → c.context.body = c.value) := by
  obtain ⟨x, visited, t, ht, made⟩ := Specification.exists_visit_of_call h hc
  obtain ⟨value, context⟩ := Token.context_of_call? made
  refine ⟨x, visited, ⟨t, ht, made⟩, value, by rw [context]; rfl, visited.inObject, ?_, ?_⟩
  · intro direct
    rw [context, Visit.context, direct]
    rfl
  · intro nested
    rw [context, value, Visit.context, nested]
    rfl

/-- Whether the body has the same value under the name that is the first argument. -/
def sameAs : Predicate :=
  (Predicate.ofContext fun v args context =>
    .verdict (match args with
      | .value (.string name) :: _ => context.body.get? name == some v
      | _ => false)).named "sameAs"

/-- Tags that have to be the one that is allowed. -/
def tagged : Specification :=
  .ofFields [
    ("allowed", .ofTokens [.name "boolean"]),
    ("tags", .ofTokens [.every (.ofTokens [.step (.predicate sameAs) [.value (.string "allowed")]])])]

def oneTag : Json := .object [("allowed", .bool true), ("tags", .array [.bool true])]

/-- About the only tag the predicate is told the tag itself as the body, in the field of the tags. -/
theorem tagged_tells_tag :
    ∃ V c, tagged.compile {} = .ok V ∧ c ∈ (V.validate oneTag).calls ∧
      c.context = { body := .bool true, field := "tags" } ∧ ∃ x, tagged.Visits oneTag x ∧ x.Makes c ∧
        x.field = "tags" ∧ x.nested = true := by
  have compiled : tagged.compile {} = .ok _ := rfl
  refine ⟨_, _, compiled, List.mem_cons_self, rfl, ?_⟩
  obtain ⟨x, visited, makes, _, field, ⟨members, _, object, _⟩, direct, _⟩ :=
    @Specification.context_of_call tagged {} _ compiled oneTag _ List.mem_cons_self
  refine ⟨x, visited, makes, field.symm, ?_⟩
  cases nested : x.nested with
  | true => rfl
  | false =>
    have body := direct nested
    rw [object] at body
    cases body

/-- That body is the object of no visit, so the allowed tag is refused: a nested rule cannot look at another field. -/
theorem tagged_body_ne_object :
    ∃ V, tagged.compile {} = .ok V ∧ (V.validate oneTag).result = false ∧
      ¬ ∀ c ∈ (V.validate oneTag).calls, ∃ x, tagged.Visits oneTag x ∧ x.Makes c ∧
        c.context = { body := x.object, field := x.field } := by
  refine ⟨_, rfl, rfl, fun told => ?_⟩
  obtain ⟨x, visited, _, context⟩ := told _ List.mem_cons_self
  obtain ⟨members, _, object, _⟩ := visited.inObject
  rw [object] at context
  cases context

end BodySpec
