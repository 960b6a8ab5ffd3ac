import BodySpec.Proofs.Preservation
import BodySpec.Proofs.Traces

/-!
# Which predicates are called

The calls that a specification makes of the predicates in it, read off its tokens without compiling it, in order, with a
flag for whether someone observes (`Specification.calls`). A field that is absent, or null where it may be, calls
nothing. Any other calls what its tokens call up to the first that does not hold (`Declaration.calls_eq`), and `every`
what its rule calls on the items up to the first that fails (`Builtin.everyCalls`). A nested specification, too, stops
at the first field that is not allowed, but not if someone observes (`Specification.calls_eq`).

These are the calls of the validator (`Specification.calls_of_compile`): the induction is over the specification, and
what its tokens and declarations say is known from `Preservation`.
-/

namespace BodySpec

/-! ## Runs -/

namespace Run

variable {α β : Type}

@[simp] theorem calls_pure (a : α) : (pure a : Run α).calls = [] := rfl

@[simp] theorem calls_bind (x : Run α) (f : α → Run β) : (x >>= f).calls = x.calls ++ (f x.result).calls := by
  rw [calls, trace_bind, List.filterMap_append]
  rfl

@[simp] theorem calls_call (c : Call) : (tell (.call c)).calls = [c] := rfl

@[simp] theorem calls_notify (observer : Option Observer) (n : Notice) : (notify observer n).calls = [] := by
  cases observer <;> rfl

/-- The checks up to the first that fails are the ones that call. -/
theorem calls_all (check : α → Run Bool) (xs : List α) :
    (all check xs).calls =
      (throughFailing (fun x => (check x).result) xs).flatMap fun x => (check x).calls := by
  rw [calls, trace_all, List.filterMap_flatMap]
  rfl

theorem calls_allThrough (check : α → Run Bool) (xs : List α) :
    (allThrough check xs).calls = xs.flatMap fun x => (check x).calls := by
  rw [calls, trace_allThrough, List.filterMap_flatMap]
  rfl

end Run

/-! ## Calls of a specification -/

/-- The calls of the nested rules that a judgement consults, given what they say and what each calls on a value. -/
def Judgement.calls (args : List (Argument (Json → Bool))) (called : List (Json → List Call)) :
    Judgement → List Call
  | verdict _ => []
  | consult position v next =>
    (called[position]?.getD fun _ => []) v ++ (next (answer args position v)).calls args called

/-- The calls of `every`: what its first argument calls on the items of an array, up to the first that fails. -/
def Builtin.everyCalls (v : Json) (args : List (Argument (Json → Bool))) (called : List (Json → List Call)) :
    List Call :=
  match v, args, called with
  | .array items, .rule satisfies :: _, f :: _ => (throughFailing satisfies items).flatMap f
  | _, _, _ => []

mutual

/-- The calls of a token on the value of a field. -/
def Token.calls (observed : Bool) (context : Context) (v : Json) : Token → List Call
  | .modifier _ => []
  | .name _ => []
  | .predicate p => [{ predicate := p, value := v, args := [], context }]
  | .step (.name name) ps =>
    if name = "every" then
      Builtin.everyCalls v (Parameter.meanings context.field true ps) (Parameter.calls observed context.field ps)
    else []
  | .step (.predicate p) ps =>
    let args := Parameter.meanings context.field false ps
    { predicate := p, value := v, args := args.map Argument.erase, context } ::
      (p.judge v (args.map Argument.erase) context).calls args (Parameter.calls observed context.field ps)

/-- The calls of tokens, up to and with the first that does not hold. -/
def Token.allCalls (observed : Bool) (context : Context) (v : Json) : List Token → List Call
  | [] => []
  | t :: ts =>
    t.calls observed context v ++
      if t.modifier?.isSome || t.holds context v then Token.allCalls observed context v ts else []

/-- The calls of a parameter on each value that it is put to; as data it calls nothing. -/
def Parameter.call (observed : Bool) (field : String) : Parameter → Json → List Call
  | .value _, _ => []
  | .rule d, v => d.calls observed { body := v, field } (some v)
  | .spec s, v => s.calls observed v

def Parameter.calls (observed : Bool) (field : String) : List Parameter → List (Json → List Call)
  | [] => []
  | p :: ps => p.call observed field :: Parameter.calls observed field ps

/-- The calls of a declaration on the value of a field, which is none if the field is absent. -/
def Declaration.calls (observed : Bool) (context : Context) : Declaration → Option Json → List Call
  | .ofTokens _, none => []
  | .ofTokens ts, some v =>
    if v.isNull && (Declaration.ofTokens ts).carries .optionalOrNull then [] else Token.allCalls observed context v ts

/-- The calls of a specification on a body. -/
def Specification.calls (observed : Bool) : Specification → Json → List Call
  | .ofFields fs, .object members => Specification.allCalls observed (.object members) fs
  | _, _ => []

/-- The calls of fields: of all of them for an observer, and otherwise up to and with the first that is not allowed. -/
def Specification.allCalls (observed : Bool) (body : Json) : List (String × Declaration) → List Call
  | [] => []
  | (field, d) :: fs =>
    d.calls observed { body, field } (body.get? field) ++
      if observed || d.allows { body, field } (body.get? field) then Specification.allCalls observed body fs else []

end

/-! ## Readings -/

theorem Token.allCalls_eq (observed : Bool) (context : Context) (v : Json) (ts : List Token) :
    Token.allCalls observed context v ts =
      (throughFailing (fun t => t.modifier?.isSome || t.holds context v) ts).flatMap
        (Token.calls observed context v) := by
  induction ts with
  | nil => rfl
  | cons t ts ih => rw [Token.allCalls, flatMap_throughFailing_cons, ih]

theorem Parameter.calls_eq (observed : Bool) (field : String) (ps : List Parameter) :
    Parameter.calls observed field ps = ps.map (Parameter.call observed field) := by
  induction ps with
  | nil => rfl
  | cons p ps ih => rw [Parameter.calls, List.map_cons, ih]

theorem Specification.allCalls_eq (observed : Bool) (body : Json) (fs : List (String × Declaration)) :
    Specification.allCalls observed body fs =
      (throughFailing (fun f => observed || f.2.allows { body, field := f.1 } (body.get? f.1)) fs).flatMap fun f =>
        f.2.calls observed { body, field := f.1 } (body.get? f.1) := by
  induction fs with
  | nil => rfl
  | cons f fs ih => rw [Specification.allCalls, flatMap_throughFailing_cons, ih]

/-- A field that is absent, or null where it may be, calls nothing; any other calls what its tokens call, up to the
first that does not hold. -/
theorem Declaration.calls_eq (observed : Bool) (context : Context) (d : Declaration) (v : Option Json) :
    d.calls observed context v =
      match v with
      | none => []
      | some w =>
        if w.isNull && d.carries .optionalOrNull then []
        else
          (throughFailing (fun t => t.modifier?.isSome || t.holds context w) d.tokens).flatMap
            (Token.calls observed context w) := by
  obtain ⟨ts⟩ := d
  cases v with
  | none => rfl
  | some w => rw [Declaration.calls, Token.allCalls_eq]; rfl

/-- For an observer all fields are called on, and else those up to the first that is not allowed. -/
theorem Specification.calls_eq (observed : Bool) (s : Specification) (members : Json.Members) :
    s.calls observed (.object members) =
      (throughFailing (fun f => observed ||
          f.2.allows { body := .object members, field := f.1 } (members.get? f.1)) s.fields).flatMap fun f =>
        f.2.calls observed { body := .object members, field := f.1 } (members.get? f.1) := by
  obtain ⟨fs⟩ := s
  rw [Specification.calls, Specification.allCalls_eq]
  rfl

/-! ## Judgements and steps -/

/-- The calls of an argument on each value that it is put to. -/
def Argument.calls : Argument Check → Json → List Call
  | .value _, _ => []
  | .rule check, v => (check v).calls

namespace Judgement

theorem calls_run (args : List (Argument Check)) (j : Judgement) :
    (j.run args).calls = j.calls (args.map Argument.results) (args.map Argument.calls) := by
  induction j with
  | verdict holds => rfl
  | consult position v next ih =>
    have asked : (((args[position]?.bind Argument.rule?).getD fun _ => pure false) v).calls =
        ((args.map Argument.calls)[position]?.getD fun _ => []) v := by
      rw [List.getElem?_map]
      cases args[position]? with
      | none => rfl
      | some a => cases a <;> rfl
    rw [run, Run.calls_bind, asked, ih, calls, answer_results]

/-- Where no argument calls anything, nor does a judgement. -/
theorem calls_eq_nil {called : List (Json → List Call)} (h : ∀ f ∈ called, ∀ v, f v = [])
    (args : List (Argument (Json → Bool))) (j : Judgement) : j.calls args called = [] := by
  induction j with
  | verdict holds => rfl
  | consult position v next ih =>
    rw [calls, ih, List.append_nil]
    cases hf : called[position]? with
    | none => rfl
    | some f => exact h f (List.mem_of_getElem? hf) v

theorem calls_forEach (satisfies : Json → Bool) (args : List (Argument (Json → Bool))) (f : Json → List Call)
    (called : List (Json → List Call)) (vs : List Json) :
    (forEach 0 vs).calls (.rule satisfies :: args) (f :: called) = (throughFailing satisfies vs).flatMap f := by
  induction vs with
  | nil => rfl
  | cons v vs ih =>
    rw [forEach, calls, flatMap_throughFailing_cons, ← ih]
    show f v ++ (if satisfies v then forEach 0 vs else verdict false).calls _ _ = _
    cases satisfies v <;> rfl

end Judgement

/-- Only `every` consults a rule: its first argument, about the items up to the first that fails. -/
theorem Builtin.calls_judge (b : Builtin) (args : List (Argument (Json → Bool))) (called : List (Json → List Call))
    (v : Json) : (b.judge v (args.map Argument.erase)).calls args called =
      if b = .every then Builtin.everyCalls v args called else [] := by
  cases b with
  | every =>
    cases v with
    | array items =>
      rcases args with _ | ⟨_ | satisfies, args⟩
      · rfl
      · rfl
      · cases called with
        | nil => exact Judgement.calls_eq_nil (fun _ hf => by cases hf) _ _
        | cons f called => exact Judgement.calls_forEach satisfies args f called items
    | _ => rfl
  | _ => rfl

/-- The calls of a step: its own, if it calls a predicate, and those of the rules that it consults. -/
theorem Step.calls_check (s : Step) (v : Json) (context : Context) :
    (s.check v context).calls =
      match s.routine with
      | .builtin b => (b.judge v s.shownArgs).calls (s.args.map Argument.results) (s.args.map Argument.calls)
      | .custom p =>
        { predicate := p, value := v, args := s.shownArgs, context } ::
          (p.judge v s.shownArgs context).calls (s.args.map Argument.results) (s.args.map Argument.calls) := by
  obtain ⟨routine, args⟩ := s
  cases routine with
  | builtin b => exact Judgement.calls_run args _
  | custom p =>
    show (Run.tell _ >>= fun _ => (p.judge v (args.map Argument.erase) context).run args).calls = _
    rw [Run.calls_bind, Run.calls_call, Judgement.calls_run]
    rfl

/-! ## Rules and validators -/

/-- A rule calls nothing for an absence or a null that is allowed, and else what its steps call up to the first that
fails. -/
theorem Rule.calls_checkValue (r : Rule) (v : Option Json) (body : Json) (o : Option Observer) :
    (r.checkValue v body o).calls =
      match v with
      | none => []
      | some w =>
        if w.isNull && r.optionalOrNull then []
        else
          (throughFailing (fun s => (s.check w { body, field := r.field }).result) r.steps).flatMap fun s =>
            (s.check w { body, field := r.field }).calls := by
  have own : ((r.ownNotice? v body).elim [] fun n => (Run.notify o n).trace).filterMap Entry.call? = [] := by
    cases r.ownNotice? v body with
    | none => rfl
    | some n => exact Run.calls_notify o n
  rw [Run.calls, trace_checkValue, List.filterMap_append, own, List.append_nil, stepTrace.eq_def]
  cases v with
  | none => rfl
  | some w =>
    simp only [taken, Bool.and_comm r.optionalOrNull]
    cases w.isNull && r.optionalOrNull with
    | true => rfl
    | false => exact List.filterMap_flatMap

/-- With an observer all fields are checked, and without up to the first that fails. -/
theorem Validator.calls_checkFields (V : Validator) (body : Json) :
    (V.checkFields body).calls =
      (throughFailing (fun r => V.observer.isSome || (r.check body none).result) V.rules).flatMap fun r =>
        (r.check body V.observer).calls := by
  rw [checkFields]
  cases V.observer with
  | none => exact Run.calls_all _ _
  | some o =>
    have through : throughFailing (fun r => (some o).isSome || (r.check body none).result) V.rules = V.rules :=
      throughFailing_of_all fun _ _ => rfl
    rw [through]
    exact Run.calls_allThrough _ _

theorem Validator.calls_validate_of_not_object {V : Validator} {body : Json}
    (h : ∀ members, body ≠ .object members) : (V.validate body).calls = [] := by
  cases body with
  | object members => exact absurd rfl (h members)
  | _ =>
    show (Run.notify V.observer _ >>= fun _ => pure false).calls = _
    rw [Run.calls_bind, Run.calls_notify]
    rfl

/-! ## Rules written as data -/

theorem Run.calls_eq_nil_iff {α : Type} {x : Run α} : x.calls = [] ↔ x.Leaves fun e => e.call? = none := by
  rw [calls, List.filterMap_eq_nil_iff, Leaves]

/-- Where no predicate stands, none is called. -/
theorem Entry.covers_noCall (observer : Option Observer) :
    Entry.Covers observer (fun _ => False) fun e => e.call? = none where
  call _ hc := hc.elim
  notice _ _ _ _ := rfl

/-- A value that stands for a rule calls nothing. -/
theorem Json.calls_of_asRule {options : Options} {v : Json} {site : Site} {a : Argument Check}
    (h : v.asRule options site = .ok a) : a.calls = fun _ => [] := by
  cases a with
  | value w => rfl
  | rule check =>
    have silent := Json.keeps (Check.inductive_leaves (Entry.covers_noCall options.observer)) v site check h
    exact funext fun w => Run.calls_eq_nil_iff.mpr (silent w)

/-! ## Tokens, parameters and declarations -/

/-- Where the results of a success pass the same tests as its elements and yield the same, so do those up to the first
failure. -/
theorem flatMap_throughFailing_of_mapM {α β γ : Type} {f : α → Except Fault β}
    {p : α → Bool} {q : β → Bool}
    {k : α → List γ} {g : β → List γ} {xs : List α} {ys : List β}
    (hf : ∀ x ∈ xs, ∀ y, f x = .ok y → q y = p x ∧ g y = k x) (h : xs.mapM f = .ok ys) :
    (throughFailing q ys).flatMap g = (throughFailing p xs).flatMap k := by
  replace h := mapM_eq_ok.mp h
  induction h with
  | nil => rfl
  | @cons x y xs ys hy _ ih =>
    obtain ⟨test, yields⟩ := hf x List.mem_cons_self y hy
    have others := ih fun z hz => hf z (List.mem_cons_of_mem x hz)
    rw [flatMap_throughFailing_cons, flatMap_throughFailing_cons, test, yields, others]

/-- The calls of a clause on the value of a field; a modifier calls nothing. -/
def Clause.calls (context : Context) (v : Json) : Clause → List Call
  | .modifier _ => []
  | .step s => (s.check v context).calls

/-- The steps among clauses call what the clauses call. -/
theorem Clause.calls_steps (context : Context) (v : Json) (cs : List Clause) :
    ((throughFailing (fun s => (s.check v context).result) (cs.filterMap Clause.step?)).flatMap fun s =>
      (s.check v context).calls) = (throughFailing (Clause.passes context v) cs).flatMap (Clause.calls context v) := by
  induction cs with
  | nil => rfl
  | cons c cs ih =>
    rw [flatMap_throughFailing_cons]
    cases c with
    | modifier m => exact ih
    | step s =>
      show ((throughFailing _ (s :: cs.filterMap Clause.step?)).flatMap _) = _
      rw [flatMap_throughFailing_cons, ih]
      rfl

section Induction

variable {options : Options}

/-- The clause of a token calls what the token calls. -/
def Token.CallsKept (options : Options) (t : Token) : Prop :=
  ∀ (site : Site) (c : Clause), t.clause options site = .ok c → ∀ (v body : Json),
    c.calls { body, field := site.field } v = t.calls options.observer.isSome { body, field := site.field } v

/-- The argument of a parameter calls what the parameter calls. -/
def Parameter.CallsKept (options : Options) (p : Parameter) : Prop :=
  ∀ (site : Site) (w : Bool) (a : Argument Check), p.argument options site w = .ok a →
    a.calls = p.call options.observer.isSome site.field

/-- The rule of a declaration calls what the declaration calls. -/
def Declaration.CallsKept (options : Options) (d : Declaration) : Prop :=
  ∀ (site : Site) (r : Rule), d.rule options site = .ok r →
    ∀ (v : Option Json) (body : Json) (o : Option Observer),
    (r.checkValue v body o).calls = d.calls options.observer.isSome { body, field := site.field } v

/-- The rules of a specification call together what it calls. -/
def Specification.CallsKept (options : Options) (s : Specification) : Prop :=
  ∀ (depth : Nat) (rules : List Rule), s.rulesAt options depth = .ok rules →
    ∀ (strict : Bool) (members : Json.Members),
    (Validator.checkFields { rules, strict, observer := options.observer } (.object members)).calls =
      s.calls options.observer.isSome (.object members)

theorem Parameter.calls_of_arguments {ps : List Parameter} (hps : ∀ p ∈ ps, p.CallsKept options) {site : Site}
    {w : Bool} {args : List (Argument Check)} (h : Parameter.arguments options site w ps = .ok args) :
    args.map Argument.calls = Parameter.calls options.observer.isSome site.field ps := by
  rw [Parameter.arguments_eq] at h
  rw [Parameter.calls_eq]
  exact map_of_mapM (fun p hp => hps p hp site w) h

theorem Parameter.results_of_compiled {ps : List Parameter} {site : Site} {w : Bool} {args : List (Argument Check)}
    (h : Parameter.arguments options site w ps = .ok args) :
    args.map Argument.results = Parameter.meanings site.field w ps :=
  Parameter.results_of_arguments (fun p _ => (Specification.preserved_cases options).parameter p) h

/-- A named step calls nothing unless it is `every`, and then what its first parameter calls. -/
theorem Token.callsKept_named (n : String) {ps : List Parameter} (hps : ∀ p ∈ ps, p.CallsKept options) :
    (Token.step (.name n) ps).CallsKept options := by
  intro site c h v body
  rw [Token.clause] at h
  rcases Clause.ofName_eq_ok.mp h with ⟨m, hm, _, rfl⟩ | ⟨b, args, _, hb, hargs, rfl⟩
  · have other : n ≠ "every" := by
      rw [Modifier.ofName?_eq_some_iff.mp hm]
      cases m <;> decide
    rw [Token.calls, if_neg other]
    rfl
  · have results := Parameter.results_of_compiled hargs
    have calls := Parameter.calls_of_arguments hps hargs
    have shown : args.map Argument.erase = (args.map Argument.results).map Argument.erase :=
      (Argument.map_erase_results args).symm
    have step : (Clause.step { routine := .builtin b, args }).calls { body, field := site.field } v =
        (b.judge v ((args.map Argument.results).map Argument.erase)).calls (args.map Argument.results)
          (args.map Argument.calls) := by
      rw [Clause.calls, Step.calls_check, ← shown]
      rfl
    rw [step, Builtin.calls_judge, Token.calls, results, calls, Builtin.wantsRules_of_ofName? hb]
    by_cases hn : n = "every"
    · have every : b = .every := by
        rw [hn, show Builtin.ofName? "every" = some .every from rfl] at hb
        exact (Option.some.inj hb).symm
      simp only [hn, every, if_true, decide_true]
    · have other : b ≠ .every := by
        rintro rfl
        exact hn (Builtin.name_of_ofName? hb).symm
      rw [if_neg other, if_neg hn]

theorem Token.callsKept_name (n : String) : (Token.name n).CallsKept options := by
  intro site c h v body
  have step : (Token.step (.name n) []).CallsKept options := Token.callsKept_named n fun _ hp => by cases hp
  have kept := step site c (by rw [← h, Token.clause, Token.clause]; rfl) v body
  have none : Builtin.everyCalls v [] [] = [] := by cases v <;> rfl
  rw [kept, Token.calls, Token.calls, Parameter.meanings, Parameter.calls, none, ite_self]

theorem Token.callsKept_inline (q : Predicate) {ps : List Parameter} (hps : ∀ p ∈ ps, p.CallsKept options) :
    (Token.step (.predicate q) ps).CallsKept options := by
  intro site c h v body
  rw [Token.clause] at h
  obtain ⟨args, hargs, hc⟩ := bind_eq_ok.mp h
  cases hc
  have results := Parameter.results_of_compiled hargs
  have calls := Parameter.calls_of_arguments hps hargs
  have shown : Step.shownArgs { routine := .custom q, args } =
      (Parameter.meanings site.field false ps).map Argument.erase := by
    rw [← results, Argument.map_erase_results]
    rfl
  rw [Clause.calls, Step.calls_check, Token.calls, shown, results, calls]

theorem Declaration.callsKept {ts : List Token} (hts : ∀ t ∈ ts, t.CallsKept options) :
    (Declaration.ofTokens ts).CallsKept options := by
  intro site r h v body o
  have flags := Declaration.flags_of_rule h
  have field := Declaration.field_of_rule h
  obtain ⟨cs, hcs, hr⟩ := Declaration.rule_eq_ok.mp h
  rw [Rule.calls_checkValue, flags.2, field]
  cases v with
  | none => rfl
  | some w =>
    have steps : ((throughFailing (fun s => (s.check w { body, field := site.field }).result) r.steps).flatMap fun s =>
        (s.check w { body, field := site.field }).calls) =
        (throughFailing (fun t => t.modifier?.isSome || t.holds { body, field := site.field } w) ts).flatMap
          (Token.calls options.observer.isSome { body, field := site.field } w) := by
      rw [(Rule.ofClauses_eq_ok.mp hr).2, Clause.calls_steps]
      refine flatMap_throughFailing_of_mapM (fun t ht c hc => ⟨?_, hts t ht site c hc w body⟩) (mapM_eq_ok.mpr hcs)
      exact (Specification.preserved_cases options).token t site c hc w body
    simp only [Declaration.calls_eq, steps]
    rfl

theorem Specification.callsKept {fs : List (String × Declaration)} (hfs : ∀ f ∈ fs, f.2.CallsKept options) :
    (Specification.ofFields fs).CallsKept options := by
  intro depth rules h strict members
  replace h := mapM_eq_ok.mpr (Specification.rulesAt_eq_ok.mp h)
  rw [Validator.calls_checkFields, Specification.calls_eq]
  refine flatMap_throughFailing_of_mapM (fun f hf r hr => ⟨?_, ?_⟩) h
  · have answer := (Specification.preserved_cases options).declaration f.2 _ r hr
      ((Json.object members).get? f.1) (.object members) none
    rw [Rule.check, Declaration.field_of_rule hr, answer]
    rfl
  · rw [Rule.check, Declaration.field_of_rule hr]
    exact hfs f hf _ r hr _ _ _

theorem Parameter.callsKept_spec {s : Specification} (hs : s.CallsKept options) :
    (Parameter.spec s).CallsKept options := by
  intro site w a h
  obtain ⟨_, rules, hr, rfl⟩ := Parameter.argument_spec_eq_ok.mp h
  refine funext fun v => ?_
  cases v with
  | object members => exact hs _ rules hr false members
  | _ =>
    obtain ⟨fs⟩ := s
    exact Validator.calls_validate_of_not_object fun _ h => by cases h

/-- Compilation keeps the calls of everything in a specification. -/
theorem Specification.callsKept_cases (options : Options) :
    Specification.Cases (Token.CallsKept options) (Parameter.CallsKept options) (Declaration.CallsKept options)
      (Specification.CallsKept options) where
  name := Token.callsKept_name
  predicate p := by
    intro site c h v body
    cases h
    have alone : ∀ j : Judgement, j.calls [] [] = [] := Judgement.calls_eq_nil (fun _ hf => by cases hf) []
    rw [Clause.calls, Step.calls_check, Token.calls]
    exact congrArg (List.cons _) (alone _)
  named n _ hps := Token.callsKept_named n hps
  inline q _ hps := Token.callsKept_inline q hps
  modifier m := by
    intro site c h v body
    cases h
    rfl
  value v := by
    intro site w a h
    cases w with
    | true => exact Json.calls_of_asRule h
    | false => cases h; rfl
  rule d hd := by
    intro site w a h
    obtain ⟨_, r, hr, rfl⟩ := Parameter.argument_rule_eq_ok.mp h
    exact funext fun v => hd _ r hr (some v) v options.observer
  spec _ hs := Parameter.callsKept_spec hs
  tokens _ hts := Declaration.callsKept hts
  fields _ hfs := Specification.callsKept hfs

end Induction

/-! ## Validators -/

/-- **The calls of a validator are those of its specification**, if the keys of the body match where they have to. -/
theorem Specification.calls_of_compile {s : Specification} {options : Options} {V : Validator}
    (h : s.compile options = .ok V) {body : Json} (hk : V.Matches body) :
    (V.validate body).calls = s.calls options.observer.isSome body := by
  cases body with
  | object members =>
    rw [Validator.validate_of_matches hk]
    obtain ⟨rules, hr, rfl⟩ := Specification.compile_eq_ok.mp h
    exact (Specification.callsKept_cases options).specification s 0 rules hr options.strict members
  | _ =>
    obtain ⟨fs⟩ := s
    exact Validator.calls_validate_of_not_object fun _ h => by cases h

/-- Where the keys do not match, nothing is called. -/
theorem Validator.calls_of_not_matches {V : Validator} {body : Json} (hk : ¬ V.Matches body) :
    (V.validate body).calls = [] := by
  obtain ⟨members, rfl⟩ := Validator.exists_of_not_matches hk
  rw [Run.calls, (Validator.validate_of_not_matches hk).2]
  cases V.observer <;> rfl

end BodySpec
