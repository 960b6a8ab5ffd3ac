import BodySpec.Proofs.Calls
import BodySpec.Proofs.Consultation
import BodySpec.Proofs.Observation
import BodySpec.Proofs.Settings

/-!
# An observer changes no call before the first failure

A validator that nobody observes calls the predicates that an observed one calls, in the same order and on the same
values, and stops earlier: its calls are the first of the other's, and all of them if the body is accepted
(`Specification.calls_silent`). This needs predicates that are candid (`Predicate.Candid`). One that goes on after a
nested rule has failed would be called on by a run whose nested rule has called less.

The two runs part where a nested specification goes on after a field that is not allowed, and there the answer is no. So
the invariant `Begins` is about calls together with an answer: they begin the others, and are the others if the answer
is yes. It passes through a list that both runs leave at the first failure (`Begins.append`), and through one that only
the run without an observer leaves there (`Begins.append_through`).
-/

namespace BodySpec

/-! ## Calls that begin others -/

/-- The calls of a run begin those of another, and are the same if the answer is yes. -/
structure Begins (holds : Bool) (silent observed : List Call) : Prop where
  begins : silent <+: observed
  eq_of_holds : holds = true → silent = observed

namespace Begins

variable {holds others : Bool} {silent observed silent' observed' : List Call}

theorem same (holds : Bool) (calls : List Call) : Begins holds calls calls where
  begins := List.prefix_rfl
  eq_of_holds _ := rfl

/-- What both runs do only if the answer so far is yes. -/
theorem append (h : Begins holds silent observed) (h' : Begins others silent' observed') :
    Begins (holds && others) (silent ++ if holds then silent' else [])
      (observed ++ if holds then observed' else []) := by
  cases holds with
  | false =>
    rw [if_neg Bool.false_ne_true, if_neg Bool.false_ne_true, List.append_nil, List.append_nil]
    exact ⟨h.begins, fun hf => by cases hf⟩
  | true =>
    rw [h.eq_of_holds (rfl)]
    refine ⟨(List.prefix_append_right_inj observed).mpr h'.begins, fun ho => ?_⟩
    rw [if_pos (rfl), if_pos (rfl), h'.eq_of_holds ho]

/-- What the observed run does in any case. -/
theorem append_through (h : Begins holds silent observed) (h' : Begins others silent' observed') :
    Begins (holds && others) (silent ++ if holds then silent' else []) (observed ++ observed') := by
  cases holds with
  | false =>
    rw [if_neg Bool.false_ne_true, List.append_nil]
    exact ⟨h.begins.trans (List.prefix_append observed observed'), fun hf => by cases hf⟩
  | true => exact h.append h'

end Begins

/-- The items of an array, up to the first that fails. -/
theorem Begins.flatMap_throughFailing {satisfies : Json → Bool} {f g : Json → List Call}
    (h : ∀ v, Begins (satisfies v) (f v) (g v)) (items : List Json) :
    Begins (items.all satisfies) ((throughFailing satisfies items).flatMap f)
      ((throughFailing satisfies items).flatMap g) := by
  induction items with
  | nil => exact .same true []
  | cons v items ih =>
    rw [flatMap_throughFailing_cons, flatMap_throughFailing_cons, List.all_cons]
    exact (h v).append ih

/-! ## Specifications -/

/-- The calls of a token begin those for an observer, if its predicates are candid. -/
def Token.CallsBegin (t : Token) : Prop :=
  (∀ p ∈ t.predicates, p.Candid) → ∀ (context : Context) (v : Json),
    Begins (t.modifier?.isSome || t.holds context v) (t.calls false context v) (t.calls true context v)

def Parameter.CallsBegin (p : Parameter) : Prop :=
  (∀ q ∈ p.predicates, q.Candid) → ∀ (field : String) (dataAsRules : Bool) (v : Json),
    Begins (((p.meaning field dataAsRules).rule?.getD fun _ => false) v) (p.call false field v) (p.call true field v)

def Declaration.CallsBegin (d : Declaration) : Prop :=
  (∀ p ∈ d.predicates, p.Candid) → ∀ (context : Context) (v : Option Json),
    Begins (d.allows context v) (d.calls false context v) (d.calls true context v)

def Specification.CallsBegin (s : Specification) : Prop :=
  (∀ p ∈ s.predicates, p.Candid) →
    ∀ body : Json, Begins (s.accepts body) (s.calls false body) (s.calls true body)

section Parameters

variable {ps : List Parameter}

/-- The calls of parameters, where their predicates are candid. -/
theorem Parameter.callsBegin_of_mem (hps : ∀ p ∈ ps, p.CallsBegin)
    (hq : ∀ q ∈ Parameter.allPredicates ps, q.Candid) {p : Parameter} (hp : p ∈ ps) (field : String)
    (dataAsRules : Bool) (v : Json) :
    Begins (((p.meaning field dataAsRules).rule?.getD fun _ => false) v) (p.call false field v)
      (p.call true field v) := by
  refine hps p hp (fun q hqp => hq q ?_) field dataAsRules v
  rw [Parameter.allPredicates_eq]
  exact List.mem_flatMap.mpr ⟨p, hp, hqp⟩

/-- The first argument of `every`, on the items of an array. -/
theorem Builtin.callsBegin_every (hps : ∀ p ∈ ps, p.CallsBegin)
    (hq : ∀ q ∈ Parameter.allPredicates ps, q.Candid)
    (field : String) (v : Json) :
    Begins (Builtin.passesNamed "every" (Parameter.meanings field true ps) v)
      (Builtin.everyCalls v (Parameter.meanings field true ps) (Parameter.calls false field ps))
      (Builtin.everyCalls v (Parameter.meanings field true ps) (Parameter.calls true field ps)) := by
  cases v with
  | array items =>
    cases ps with
    | nil => exact .same _ []
    | cons p ps =>
      have first := Parameter.callsBegin_of_mem hps hq List.mem_cons_self field true
      rw [Parameter.meanings, Parameter.calls, Parameter.calls]
      cases hm : p.meaning field true with
      | value w => exact .same _ []
      | rule satisfies =>
        rw [hm] at first
        exact Begins.flatMap_throughFailing first items
  | _ => exact .same _ []

/-- A judgement that is a verdict calls nothing; one that is the answer of a parameter calls
what the parameter calls. -/
theorem Judgement.callsBegin (hps : ∀ p ∈ ps, p.CallsBegin) (hq : ∀ q ∈ Parameter.allPredicates ps, q.Candid)
    {j : Judgement} {v : Json} (hj : (∃ holds, j = .verdict holds) ∨ ∃ position, j = .consult position v .verdict)
    (field : String) :
    Begins (j.decide (Parameter.meanings field false ps))
      (j.calls (Parameter.meanings field false ps) (Parameter.calls false field ps))
      (j.calls (Parameter.meanings field false ps) (Parameter.calls true field ps)) := by
  rcases hj with ⟨holds, rfl⟩ | ⟨position, rfl⟩
  · exact .same holds []
  · simp only [Judgement.decide, Judgement.calls, List.append_nil, Judgement.answer, Parameter.meanings_eq,
      Parameter.calls_eq, List.getElem?_map]
    cases hp : ps[position]? with
    | none => exact .same false []
    | some p => exact Parameter.callsBegin_of_mem hps hq (List.mem_of_getElem? hp) field false v

theorem Token.callsBegin_named (n : String) (hps : ∀ p ∈ ps, p.CallsBegin) :
    (Token.step (.name n) ps).CallsBegin := by
  intro hq context v
  rw [Token.calls, Token.calls]
  by_cases hn : n = "every"
  · have noModifier : (Token.step (.name n) ps).modifier? = none := by
      rw [hn]
      cases ps <;> rfl
    rw [noModifier, if_pos hn, if_pos hn, Token.holds, hn]
    exact Builtin.callsBegin_every hps hq context.field v
  · rw [if_neg hn, if_neg hn]
    exact .same _ []

theorem Token.callsBegin_inline (q : Predicate) (hps : ∀ p ∈ ps, p.CallsBegin) :
    (Token.step (.predicate q) ps).CallsBegin := by
  intro hq context v
  have nested := Judgement.callsBegin hps (fun r hr => hq r (List.mem_cons_of_mem q hr))
    (hq q List.mem_cons_self v ((Parameter.meanings context.field false ps).map Argument.erase) context) context.field
  rw [Token.calls, Token.calls]
  exact (Begins.same true [_]).append nested

end Parameters

theorem Token.callsBegin_all {ts : List Token} (hts : ∀ t ∈ ts, t.CallsBegin)
    (hp : ∀ p ∈ Token.allPredicates ts, p.Candid) (context : Context) (v : Json) :
    Begins (Token.allHold context v ts) (Token.allCalls false context v ts) (Token.allCalls true context v ts) := by
  induction ts with
  | nil => exact .same true []
  | cons t ts ih =>
    have first := hts t List.mem_cons_self (fun p h => hp p (List.mem_append_left _ h)) context v
    have others := ih (fun u hu => hts u (List.mem_cons_of_mem t hu)) fun p h => hp p (List.mem_append_right _ h)
    exact first.append others

theorem Declaration.callsBegin {ts : List Token} (hts : ∀ t ∈ ts, t.CallsBegin) :
    (Declaration.ofTokens ts).CallsBegin := by
  intro hp context v
  cases v with
  | none => exact .same _ []
  | some w =>
    rw [Declaration.calls, Declaration.calls, Declaration.allows]
    cases w.isNull && (Declaration.ofTokens ts).carries .optionalOrNull with
    | true => exact .same _ []
    | false => exact Token.callsBegin_all hts hp context w

/-- The fields of a body: the run without an observer ends at the first that is not allowed, the other goes on. -/
theorem Specification.callsBegin_all {fs : List (String × Declaration)} (hfs : ∀ f ∈ fs, f.2.CallsBegin)
    (hp : ∀ p ∈ Specification.allPredicates fs, p.Candid) (body : Json) :
    Begins (Specification.allAllow body fs) (Specification.allCalls false body fs)
      (Specification.allCalls true body fs) := by
  induction fs with
  | nil => exact .same true []
  | cons f fs ih =>
    have first := hfs f List.mem_cons_self (fun p h => hp p (List.mem_append_left _ h)) { body, field := f.1 }
      (body.get? f.1)
    have others := ih (fun g hg => hfs g (List.mem_cons_of_mem f hg)) fun p h => hp p (List.mem_append_right _ h)
    exact first.append_through others

theorem Specification.callsBegin {fs : List (String × Declaration)} (hfs : ∀ f ∈ fs, f.2.CallsBegin) :
    (Specification.ofFields fs).CallsBegin := by
  intro hp body
  cases body with
  | object members => exact Specification.callsBegin_all hfs hp (.object members)
  | _ => exact .same _ []

theorem Specification.callsBegin_cases :
    Specification.Cases Token.CallsBegin Parameter.CallsBegin Declaration.CallsBegin Specification.CallsBegin where
  name _ _ _ _ := .same _ []
  predicate _ _ _ _ := .same _ _
  named n _ hps := Token.callsBegin_named n hps
  inline q _ hps := Token.callsBegin_inline q hps
  modifier _ _ _ _ := .same _ []
  value _ _ _ _ _ := .same _ []
  rule _ hd hp field _ v := hd hp { body := v, field } (some v)
  spec _ hs hp _ _ v := hs hp v
  tokens _ hts := Declaration.callsBegin hts
  fields _ hfs := Specification.callsBegin hfs

/-! ## Validators -/

theorem Validator.matches_congr {V W : Validator} (hf : V.fields = W.fields) (hs : V.strict = W.strict) (body : Json) :
    V.Matches body ↔ W.Matches body := by
  simp only [Matches, hs, Validator.keysMatch_congr hf]

/-- A body that is accepted is one that the specification accepts. -/
theorem Specification.accepts_of_result {s : Specification} {options : Options} {V : Validator}
    (h : s.compile options = .ok V) {body : Json} (hr : (V.validate body).result = true) : s.accepts body = true := by
  cases body with
  | object members =>
    rw [Specification.result_of_compile h, Bool.and_eq_true] at hr
    exact hr.2
  | _ => cases hr

/-- **An observer changes no call before the first failure.** Without an observer a validator makes the first of the
calls that it makes for one, and all of them if it accepts the body, where predicates are candid. Both are the calls of
the specification (`Specification.calls`), of which there are none for an absent field or a null that may be, none after
the first token of a declaration that does not hold and none on items after the first that fails. Where the keys of a
strict body do not match, there are no calls at all. -/
theorem Specification.calls_silent {s : Specification} {options : Options} {o : Observer} {V W : Validator}
    (hV : s.compile { options with observer := none } = .ok V)
    (hW : s.compile { options with observer := some o } = .ok W) (hp : ∀ p ∈ s.predicates, p.Candid) (body : Json) :
    (V.validate body).calls <+: (W.validate body).calls ∧
    ((V.validate body).result = true → (V.validate body).calls = (W.validate body).calls) ∧
    (V.Matches body →
      (V.validate body).calls = s.calls false body ∧ (W.validate body).calls = s.calls true body) ∧
    (¬ V.Matches body → (V.validate body).calls = [] ∧ (W.validate body).calls = []) := by
  have fields : V.fields = W.fields :=
    (Specification.fields_of_compile hV).trans (Specification.fields_of_compile hW).symm
  have strict : V.strict = W.strict :=
    (Specification.strict_of_compile hV).trans (Specification.strict_of_compile hW).symm
  have same : V.Matches body ↔ W.Matches body := Validator.matches_congr fields strict body
  have matched : V.Matches body →
      (V.validate body).calls = s.calls false body ∧ (W.validate body).calls = s.calls true body :=
    fun hk => ⟨Specification.calls_of_compile hV hk, Specification.calls_of_compile hW (same.mp hk)⟩
  have mismatched : ¬ V.Matches body → (V.validate body).calls = [] ∧ (W.validate body).calls = [] :=
    fun hk => ⟨Validator.calls_of_not_matches hk, Validator.calls_of_not_matches (mt same.mpr hk)⟩
  have begins : Begins (s.accepts body) (V.validate body).calls (W.validate body).calls := by
    by_cases hk : V.Matches body
    · rw [(matched hk).1, (matched hk).2]
      exact Specification.callsBegin_cases.specification s hp body
    · rw [(mismatched hk).1, (mismatched hk).2]
      exact .same _ []
  exact ⟨begins.begins, fun hr => begins.eq_of_holds (Specification.accepts_of_result hV hr), matched, mismatched⟩

/-- Whatever the value, the answer of the first argument. -/
def ofRule : Predicate := (Predicate.ofContext fun v _ _ => .consult 0 v .verdict).named "ofRule"

/-- Any value at all. -/
def anything : Predicate := (Predicate.ofValue fun _ => true).named "anything"

/-- A host and guests, each with an age and a name. -/
def party : Specification :=
  .ofFields [
    ("guests", .ofTokens [.everySpec (.ofFields [
      ("age", .ofTokens [.step (.predicate ofRule) [.rule (.ofTokens [.name "number"])]]),
      ("name", .ofTokens [.predicate anything])])]),
    ("host", .ofTokens [.predicate anything])]

/-- A guest whose age is not known, and another. -/
def twoGuests : Json :=
  .object [
    ("guests", .array [.object [("age", .null), ("name", .null)], .object [("age", .null)]]),
    ("host", .null)]

/-- The first guest is refused for the age. An observer also hears of the name and of the host, and nobody of the second
guest. -/
theorem party_calls_twoGuests :
    ∃ V W, party.compile { observer := none } = .ok V ∧
      party.compile { observer := some (.listener "recorder") } = .ok W ∧ (∀ p ∈ party.predicates, p.Candid) ∧
      (V.validate twoGuests).calls.map (fun c => c.context.field) = ["age"] ∧
      (W.validate twoGuests).calls.map (fun c => c.context.field) = ["age", "name", "host"] ∧
      (V.validate twoGuests).calls <+: (W.validate twoGuests).calls := by
  have candid : ∀ p ∈ party.predicates, p.Candid := by
    intro p hp
    have known : p ∈ [ofRule, anything, anything] := hp
    simp only [List.mem_cons, List.not_mem_nil, or_false] at known
    rcases known with rfl | rfl | rfl
    · exact fun v args context => .inr ⟨0, rfl⟩
    · exact fun v args context => .inl ⟨true, rfl⟩
    · exact fun v args context => .inl ⟨true, rfl⟩
  refine ⟨_, _, rfl, rfl, candid, rfl, rfl, ?_⟩
  have silent : party.compile { observer := none } = .ok _ := rfl
  have observed : party.compile { observer := some (.listener "recorder") } = .ok _ := rfl
  exact (@Specification.calls_silent party {} (.listener "recorder") _ _ silent observed candid twoGuests).1

end BodySpec
