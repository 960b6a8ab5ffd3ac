import BodySpec.Proofs.Replacement

/-!
# How a declaration is written

The modifiers of a declaration are a set: where they stand, how often and in which of their three spellings
(`Modifier.spellings`) does not matter. Nor does it matter whether a name or a predicate is written as such or as a step
without parameters. `Declaration.Respelled` is one such change of a declaration, and rules that are written as data may
change likewise (`Json.Respelled`).

The rule of a declaration has a normal form, made of the modifiers that it carries and of the clauses of its other
tokens in order (`Declaration.rule_eq_ofSteps`). A change keeps both, so the rule or the fault stays the same
(`Declaration.Respelled.sameRule`), and with it the outcome of every specification that has the declaration in it at any
depth (`Specification.compile_respelled`).
-/

namespace BodySpec

/-! ## Spellings -/

/-- The tokens that a modifier may be written as. -/
def Modifier.spellings (m : Modifier) : List Token := [.modifier m, .name m.name, .step (.name m.name) []]

theorem Token.modifier?_of_mem_spellings {t : Token} {m : Modifier} (h : t ∈ m.spellings) : t.modifier? = some m := by
  simp only [Modifier.spellings, List.mem_cons, List.not_mem_nil, or_false] at h
  rcases h with rfl | rfl | rfl
  · rfl
  · exact m.ofName?_name
  · exact m.ofName?_name

/-- A token that spells a modifier contributes it. -/
theorem Token.clause_of_modifier? {t : Token} {m : Modifier} (h : t.modifier? = some m) (options : Options)
    (site : Site) : t.clause options site = .ok (.modifier m) := by
  have named : ∀ n arguments, Modifier.ofName? n = some m →
      Clause.ofName site.field n true arguments = .ok (.modifier m) := by
    intro n arguments hn
    rw [Clause.ofName, hn]
    rfl
  rcases t with n | p | ⟨n | p, _ | ⟨q, ps⟩⟩ | k
  · rw [Token.clause]
    exact named n _ h
  · cases h
  · rw [Token.clause]
    exact named n _ h
  · cases h
  · cases h
  · cases h
  · cases h
    rfl

/-- A name in data is replaced by the array of it: as a whole, or as a parameter of `every` at any depth. -/
inductive Json.Respelled : Json → Json → Prop
  | name (n : String) : Json.Respelled (.string n) (.array [.string n])
  | inside {v w : Json} (h : Json.Respelled v w) (params params' : List Json) :
      Json.Respelled (.array (.string "every" :: (params ++ v :: params')))
        (.array (.string "every" :: (params ++ w :: params')))

/-- One change of how a declaration is written. -/
inductive Declaration.Respelled : Declaration → Declaration → Prop
  /-- A modifier is put further back. -/
  | moved {m : Modifier} {t : Token} (ht : t ∈ m.spellings) (before between after : List Token) :
      Declaration.Respelled (.ofTokens (before ++ t :: (between ++ after)))
        (.ofTokens (before ++ between ++ t :: after))
  /-- A modifier that there is already is given once more. -/
  | repeated {m : Modifier} {t u : Token} (ht : t ∈ m.spellings) (hu : u ∈ m.spellings) (before after : List Token)
      (there : t ∈ before ++ after) :
      Declaration.Respelled (.ofTokens (before ++ after)) (.ofTokens (before ++ u :: after))
  /-- A modifier is spelled in another way. -/
  | spelled {m : Modifier} {t u : Token} (ht : t ∈ m.spellings) (hu : u ∈ m.spellings) (before after : List Token) :
      Declaration.Respelled (.ofTokens (before ++ t :: after)) (.ofTokens (before ++ u :: after))
  /-- A name is written as a step. -/
  | name (n : String) (before after : List Token) :
      Declaration.Respelled (.ofTokens (before ++ .name n :: after)) (.ofTokens (before ++ .step (.name n) [] :: after))
  /-- A predicate is written as a step. -/
  | predicate (p : Predicate) (before after : List Token) :
      Declaration.Respelled (.ofTokens (before ++ .predicate p :: after))
        (.ofTokens (before ++ .step (.predicate p) [] :: after))
  /-- A name in a rule that is written as data is written as an array. -/
  | data {v w : Json} (h : v.Respelled w) (before after : List Token) (params params' : List Parameter) :
      Declaration.Respelled
        (.ofTokens (before ++ .step (.name "every") (params ++ .value v :: params') :: after))
        (.ofTokens (before ++ .step (.name "every") (params ++ .value w :: params') :: after))

/-! ## The normal form of a rule -/

/-- The tokens of a declaration that are no modifiers. -/
def Declaration.stepTokens (d : Declaration) : List Token := d.tokens.filter fun t => t.modifier?.isNone

/-- The rule with the modifiers and steps given; one without steps is at fault. -/
def Rule.ofSteps (field : String) (optional optionalOrNull : Bool) (steps : List Step) : Except Fault Rule :=
  if steps.isEmpty then .error (.emptyRule field) else .ok { field, steps, optional, optionalOrNull }

/-- What is made of the steps of tokens does not depend on the modifiers among them. -/
theorem Token.bind_steps_eq {β : Type} (options : Options) (site : Site) (ts : List Token)
    (make : List Step → Except Fault β) :
    (ts.mapM (Token.clause options site) >>= fun cs => make (cs.filterMap Clause.step?)) =
      ((ts.filter fun t => t.modifier?.isNone).mapM (Token.clause options site) >>= fun cs =>
        make (cs.filterMap Clause.step?)) := by
  induction ts generalizing make with
  | nil => rfl
  | cons t ts ih =>
    -- the step of the first clause, if it is one, goes into what is made of the others
    have first : ∀ us : List Token,
        ((t :: us).mapM (Token.clause options site) >>= fun cs => make (cs.filterMap Clause.step?)) =
          (t.clause options site >>= fun c =>
            us.mapM (Token.clause options site) >>= fun cs => make (c.step?.toList ++ cs.filterMap Clause.step?)) := by
      intro us
      simp only [List.mapM_cons, bind_assoc, pure_bind]
      refine congrArg _ (funext fun c => congrArg _ (funext fun cs => ?_))
      cases c <;> rfl
    cases hm : t.modifier? with
    | some m =>
      have modifier : t.clause options site = .ok (.modifier m) := Token.clause_of_modifier? hm options site
      rw [List.filter_cons_of_neg (by simp [hm]), first, modifier, ← ih]
      rfl
    | none =>
      rw [List.filter_cons_of_pos (by simp [hm]), first, first]
      exact congrArg _ (funext fun c => ih fun steps => make (c.step?.toList ++ steps))

/-- **The normal form of a rule**: the modifiers that its declaration carries, and the steps of its other tokens. -/
theorem Declaration.rule_eq_ofSteps (options : Options) (site : Site) (d : Declaration) :
    d.rule options site = (d.stepTokens.mapM (Token.clause options site) >>= fun cs =>
      Rule.ofSteps site.field (d.carries .optional) (d.carries .optionalOrNull) (cs.filterMap Clause.step?)) := by
  obtain ⟨ts⟩ := d
  rw [Declaration.stepTokens, Declaration.tokens, ← Token.bind_steps_eq, Declaration.rule, Declaration.clauses,
    Token.clauses_eq]
  cases h : ts.mapM (Token.clause options site) with
  | error e => rfl
  | ok cs =>
    have flags := Declaration.any_isModifier_of_clauses (d := .ofTokens ts) h
    show Rule.ofClauses site.field cs = Rule.ofSteps site.field _ _ (cs.filterMap Clause.step?)
    rw [Rule.ofClauses, Rule.ofSteps, flags, flags]

/-- Declarations that carry the same modifiers and have the same other tokens, in the same order, have the same rule. -/
theorem Declaration.sameRule_of_stepTokens {d e : Declaration} (carries : ∀ m, d.carries m = e.carries m)
    (tokens : d.stepTokens = e.stepTokens) : d.SameRule e := by
  intro options site
  rw [Declaration.rule_eq_ofSteps, Declaration.rule_eq_ofSteps, carries, carries, tokens]

/-! ## Changes keep the rule -/

theorem Json.Respelled.asRule_eq {v w : Json} (h : v.Respelled w) (options : Options) (site : Site) :
    v.asRule options site = w.asRule options site := by
  induction h generalizing site with
  | name n => exact Json.asRule_string options site n
  | @inside v w _ params params' ih =>
    have bare : (params ++ v :: params').isEmpty = (params ++ w :: params').isEmpty := by cases params <;> rfl
    have rules : ∀ site, Json.asRules options site (params ++ v :: params') =
        Json.asRules options site (params ++ w :: params') := by
      intro site
      rw [Json.asRules_eq, Json.asRules_eq]
      exact mapM_replace (ih site) params params'
    rw [Json.asRule, Json.asRule, bare]
    refine congrArg (site.enter options) (funext fun inner => congrArg (inner.ruleArgument options) ?_)
    exact congrArg (· >>= _) (Clause.ofName_congr (rules inner))

/-- A declaration carries what it carries without one of its tokens, and what that spells. -/
theorem Declaration.carries_insert (t : Token) (before after : List Token) (m : Modifier) :
    (Declaration.ofTokens (before ++ t :: after)).carries m =
      (t.modifier? == some m || (Declaration.ofTokens (before ++ after)).carries m) := by
  simp only [Declaration.carries, Declaration.tokens, List.any_append, List.any_cons]
  exact Bool.or_left_comm _ _ _

/-- A token that spells a modifier is no step. -/
theorem Declaration.stepTokens_insert {t : Token} (h : t.modifier? ≠ none) (before after : List Token) :
    (Declaration.ofTokens (before ++ t :: after)).stepTokens = (Declaration.ofTokens (before ++ after)).stepTokens := by
  simp [Declaration.stepTokens, Declaration.tokens, h]

/-- A change of how a declaration is written keeps its rule, or its fault. -/
theorem Declaration.Respelled.sameRule {d e : Declaration} (h : Declaration.Respelled d e) : d.SameRule e := by
  cases h with
  | @moved m t ht before between after =>
    have spells : t.modifier? ≠ none := by simp [Token.modifier?_of_mem_spellings ht]
    apply Declaration.sameRule_of_stepTokens
    · intro n
      rw [Declaration.carries_insert, Declaration.carries_insert, List.append_assoc]
    · rw [Declaration.stepTokens_insert spells, Declaration.stepTokens_insert spells, List.append_assoc]
  | @repeated m t u ht hu before after there =>
    have spelled := Token.modifier?_of_mem_spellings ht
    have again := Token.modifier?_of_mem_spellings hu
    apply Declaration.sameRule_of_stepTokens
    · intro n
      rw [Declaration.carries_insert, again]
      -- what is given once more was carried before
      cases same : some m == some n with
      | false => rfl
      | true =>
        obtain rfl : m = n := by simpa using same
        exact List.any_eq_true.mpr ⟨t, there, by simp [spelled]⟩
    · rw [Declaration.stepTokens_insert (by simp [again])]
  | spelled ht hu before after =>
    refine Declaration.sameRule_of_token (fun options site => ?_) before after
    rw [Token.clause_of_modifier? (Token.modifier?_of_mem_spellings ht),
      Token.clause_of_modifier? (Token.modifier?_of_mem_spellings hu)]
  | name n before after =>
    refine Declaration.sameRule_of_token (fun options site => ?_) before after
    rw [Token.clause, Token.clause]
    rfl
  | predicate p before after =>
    refine Declaration.sameRule_of_token (fun options site => ?_) before after
    rw [Token.clause, Token.clause]
    rfl
  | @data v w h before after params params' =>
    have parameters : Parameter.SameArgument (Head.name "every").wantsRules (.value v) (.value w) :=
      fun options site => h.asRule_eq options site
    exact Declaration.sameRule_of_token (Token.sameClause_step parameters params params') before after

/-! ## Specifications -/

/-- **It does not matter how declarations are written.** Where modifiers are moved, repeated or left out where they are
repeated, where they are spelled in another way and where names or predicates are written as steps without parameters,
in any declarations at any depth and any number of times, the outcome of compilation is the same: the same fault, or the
same validator. Its flags are the modifiers of the declarations, and its steps their other tokens, as either
specification has them. -/
theorem Specification.compile_respelled {s s' : Specification} (h : s.Interchanged Declaration.Respelled s')
    (options : Options) :
    (∃ e, s.compile options = .error e ∧ s'.compile options = .error e) ∨
    ∃ V, s.compile options = .ok V ∧ s'.compile options = .ok V ∧ ∀ t, t = s ∨ t = s' →
      List.Forall₂ (fun f r => r.field = f.1 ∧ r.optional = f.2.carries .optional ∧
        r.optionalOrNull = f.2.carries .optionalOrNull ∧ r.steps.map Step.label = f.2.labels)
        t.fields V.rules := by
  have same : s.compile options = s'.compile options :=
    (Specification.sameRules_of_interchanged (fun _ _ => Declaration.Respelled.sameRule) h).compile_eq options
  cases hV : s.compile options with
  | error e => exact .inl ⟨e, rfl, same ▸ hV⟩
  | ok V =>
    rw [hV] at same
    refine .inr ⟨V, rfl, same.symm, fun t ht => ?_⟩
    have compiled : t.compile options = .ok V := by
      rcases ht with rfl | rfl
      · exact hV
      · exact same.symm
    obtain ⟨rules, hr, rfl⟩ := Specification.compile_eq_ok.mp compiled
    refine (Specification.rulesAt_eq_ok.mp hr).imp fun f r hf => ?_
    have flags := Declaration.flags_of_rule hf
    exact ⟨Declaration.field_of_rule hf, flags.1, flags.2, Declaration.labels_of_rule hf⟩

/-- A note and identifiers, with the tokens of the one and of each of the others. -/
def memo (note ids : List Token) : Specification :=
  .ofFields [("note", .ofTokens note), ("ids", .ofTokens [.every (.ofTokens ids)])]

/-- A modifier is moved to the end, the name before it is written as a step, the modifier is given once more, and in the
nested rule another is spelled in another way: the validator stays the same. -/
theorem memo_respelled :
    (memo [.name "optional", .name "string"] [.name "guid", .modifier .optionalOrNull]).Interchanged
      Declaration.Respelled
      (memo [.step (.name "string") [], .name "optional", .modifier .optional]
        [.name "guid", .step (.name "optionalOrNull") []]) ∧
    ∃ V, (memo [.name "optional", .name "string"] [.name "guid", .modifier .optionalOrNull]).compile {} = .ok V ∧
      (memo [.step (.name "string") [], .name "optional", .modifier .optional]
        [.name "guid", .step (.name "optionalOrNull") []]).compile {} = .ok V ∧
      V.rules.map Rule.optional = [true, false] := by
  have optional : Token.name "optional" ∈ Modifier.optional.spellings := .tail _ (.head _)
  have note : ∀ {d e : List Token} (i : List Token), Declaration.Respelled (.ofTokens d) (.ofTokens e) →
      (memo d i).Interchanged Declaration.Respelled (memo e i) := fun i h =>
    .rel _ _ (.field (.here h) [] [("ids", .ofTokens [.every (.ofTokens i)])] "note")
  have ids : ∀ {d e : List Token} (n : List Token), Declaration.Respelled (.ofTokens d) (.ofTokens e) →
      (memo n d).Interchanged Declaration.Respelled (memo n e) := fun n h =>
    .rel _ _ (.field (.inside (.rule (.here h)) [] [] (.name "every") [] []) [("note", .ofTokens n)] [] "ids")
  have moved : Declaration.Respelled (.ofTokens [.name "optional", .name "string"])
      (.ofTokens [.name "string", .name "optional"]) := .moved optional [] [.name "string"] []
  have asStep : Declaration.Respelled (.ofTokens [.name "string", .name "optional"])
      (.ofTokens [.step (.name "string") [], .name "optional"]) := .name "string" [] [.name "optional"]
  have again : Declaration.Respelled (.ofTokens [.step (.name "string") [], .name "optional"])
      (.ofTokens [.step (.name "string") [], .name "optional", .modifier .optional]) :=
    .repeated optional (.head _) [.step (.name "string") [], .name "optional"] [] (.tail _ (.head _))
  have inRule : Declaration.Respelled (.ofTokens [.name "guid", .modifier .optionalOrNull])
      (.ofTokens [.name "guid", .step (.name "optionalOrNull") []]) :=
    .spelled (m := .optionalOrNull) (.head _) (.tail _ (.tail _ (.head _))) [.name "guid"] []
  have respelled := (((note _ moved).trans _ _ _ (note _ asStep)).trans _ _ _ (note _ again)).trans _ _ _ (ids _ inRule)
  refine ⟨respelled, ?_⟩
  rcases Specification.compile_respelled respelled {} with ⟨e, he, _⟩ | ⟨V, hV, hW, _⟩
  · cases he
  · cases hV
    exact ⟨_, rfl, hW, rfl⟩

end BodySpec
