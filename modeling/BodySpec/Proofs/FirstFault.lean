import BodySpec.Proofs.Walk

/-!
# Compilation reports the first fault of the walk

Each part of compilation has the fault of the first stop of its part of the walk (`Specification.walked_cases`): a
sequence of outcomes has the first fault among them (`Fault.of?_bind`, `Fault.of?_mapM`) as the walk has the stops in
sequence, and what compilation looks at first the walk sees first (`Clause.of?_ofName`, `Site.of?_enter`,
`Site.of?_ruleArgument`). The fault of a nested specification is seen from outside (`Stop.fault?_within`), that of a
nested rule is not.
-/

namespace BodySpec

/-! ## The first of a list -/

theorem findSome?_cons_or {α β : Type} (f : α → Option β) (x : α) (xs : List α) :
    (x :: xs).findSome? f = (f x).or (xs.findSome? f) := by
  rw [List.findSome?_cons]
  cases f x <;> rfl

/-! ## Faults of outcomes -/

namespace Fault

variable {α β : Type}

/-- The fault of an outcome, if it is one. -/
def of? : Except Fault α → Option Fault
  | .error e => some e
  | .ok _ => none

@[simp] theorem of?_ok (a : α) : of? (.ok a) = none := rfl

@[simp] theorem of?_error (e : Fault) : of? (.error e : Except Fault α) = some e := rfl

theorem of?_eq_some {x : Except Fault α} {e : Fault} : of? x = some e ↔ x = .error e := by
  cases x <;> simp

theorem of?_eq_none {x : Except Fault α} : of? x = none ↔ ∃ a, x = .ok a := by
  cases x <;> simp

/-- The first fault of two outcomes in a row. -/
theorem of?_bind {x : Except Fault α} {f : α → Except Fault β} {second : Option Fault}
    (h : ∀ a, x = .ok a → of? (f a) = second) : of? (x >>= f) = (of? x).or second := by
  cases x with
  | error e => rfl
  | ok a => exact h a rfl

theorem of?_bind_pure (x : Except Fault α) (g : α → β) : of? (x >>= fun a => pure (g a)) = of? x := by
  cases x <;> rfl

/-- The first fault over a list is that of its walk, when each element has the first fault of its own. -/
theorem of?_mapM {limit : Nat} {f : α → Except Fault β} {walk : α → List Stop} {xs : List α}
    (h : ∀ x ∈ xs, of? (f x) = (walk x).findSome? (Stop.fault? limit)) :
    of? (xs.mapM f) = (xs.flatMap walk).findSome? (Stop.fault? limit) := by
  induction xs with
  | nil => rfl
  | cons x xs ih =>
    rw [List.mapM_cons, List.flatMap_cons, List.findSome?_append, ← h x List.mem_cons_self,
      ← ih fun y hy => h y (List.mem_cons_of_mem _ hy)]
    exact of?_bind fun y _ => of?_bind_pure _ _

end Fault

/-! ## What compilation looks at first -/

section First

variable {options : Options} {site : Site}

/-- A name first, then the arguments of its validator. -/
theorem Clause.of?_ofName {n : String} {bare : Bool} {arguments : Bool → Except Fault (List (Argument Check))}
    {second : Option Fault} (hm : bare = true → (Modifier.ofName? n).isSome = true → second = none)
    (hb : ∀ b, Builtin.ofName? n = some b → Fault.of? (arguments b.wantsRules) = second) :
    Fault.of? (Clause.ofName site.field n bare arguments) =
      ((site.look (.name n bare)).fault? options.maxDepth).or second := by
  unfold Clause.ofName Stop.fault?
  rw [Site.path_look]
  simp only [Site.look]
  cases hn : Modifier.ofName? n with
  | some m =>
    rw [hn] at hm
    rw [Builtin.ofName?_of_modifier hn]
    -- without parameters there is no second fault; with them the name is at fault and they are not looked at
    cases bare with
    | true => rw [hm rfl rfl]; rfl
    | false => rfl
  | none =>
    cases ho : Builtin.ofName? n with
    | some b =>
      rw [Fault.of?_bind_pure, hb b ho]
      rfl
    | none => rfl

/-- The depth first, then the content. -/
theorem Site.of?_enter {α : Type} (content : Site → Except Fault α) :
    Fault.of? (site.enter options content) =
      ((site.look (.content (site.depth + 1))).fault? options.maxDepth).or (Fault.of? (content site.deeper)) := by
  unfold Site.enter Stop.fault?
  rw [Site.path_look]
  simp only [Site.look]
  split <;> rfl

/-- A rule without steps at its end. -/
theorem Rule.of?_ofClauses {cs : List Clause} {hasStep : Bool} (h : (cs.filterMap Clause.step?).isEmpty = !hasStep) :
    Fault.of? (Rule.ofClauses site.field cs) = (site.look (.ending hasStep)).fault? options.maxDepth := by
  simp only [Rule.ofClauses, Stop.fault?, Site.path_look, h]
  cases hasStep <;> rfl

/-- The clauses first, then the end of the declaration. -/
theorem Rule.of?_bind_ofClauses {clauses : Except Fault (List Clause)} {hasStep : Bool}
    (h : ∀ cs, clauses = .ok cs → (cs.filterMap Clause.step?).isEmpty = !hasStep) :
    Fault.of? (clauses >>= Rule.ofClauses site.field) =
      (Fault.of? clauses).or ((site.look (.ending hasStep)).fault? options.maxDepth) :=
  Fault.of?_bind fun cs hcs => Rule.of?_ofClauses (h cs hcs)

/-- The fault of an argument is that of its rule. -/
theorem Site.of?_ruleArgument (clauses : Except Fault (List Clause)) :
    Fault.of? (site.ruleArgument options clauses) = Fault.of? (clauses >>= Rule.ofClauses site.field) := by
  rw [Site.ruleArgument, ← bind_assoc, Fault.of?_bind_pure]

end First

/-! ## Rules written as data -/

/-- The clause of a name and parameters that stand for a rule ends the declaration without a step if the name is a
modifier. -/
theorem Clause.hasStep_of_data {field n : String} {bare : Bool}
    {arguments : Bool → Except Fault (List (Argument Check))} {cs : List Clause}
    (h : (do let clause ← Clause.ofName field n bare arguments; return [clause]) = Except.ok cs) :
    (cs.filterMap Clause.step?).isEmpty = !(Modifier.ofName? n).isNone := by
  obtain ⟨c, hc, hcs⟩ := bind_eq_ok.mp h
  cases hcs
  rcases Clause.ofName_eq_ok.mp hc with ⟨m, hm, _, rfl⟩ | ⟨b, args, hm, _, _, rfl⟩
  · rw [hm]; rfl
  · rw [hm]; rfl

/-- The content of a value that stands for a rule: its name, its parameters, its end. -/
theorem Site.of?_ruleArgument_data {options : Options} {site : Site} {n : String} {bare : Bool}
    {arguments : Bool → Except Fault (List (Argument Check))} {second : Option Fault}
    (hm : bare = true → (Modifier.ofName? n).isSome = true → second = none)
    (hb : ∀ b, Builtin.ofName? n = some b → Fault.of? (arguments b.wantsRules) = second) :
    Fault.of? (site.ruleArgument options (do
        let clause ← Clause.ofName site.field n bare arguments
        return [clause])) =
      (((site.look (.name n bare)).fault? options.maxDepth).or second).or
        ((site.look (.ending (Modifier.ofName? n).isNone)).fault? options.maxDepth) := by
  rw [Site.of?_ruleArgument, Rule.of?_bind_ofClauses fun cs hcs => Clause.hasStep_of_data hcs,
    Fault.of?_bind_pure, Clause.of?_ofName hm hb]

theorem Json.walked {options : Options} (v : Json) : ∀ site : Site,
    Fault.of? (v.asRule options site) = (v.walk site).findSome? (Stop.fault? options.maxDepth) := by
  induction v using Json.rule_induction with
  | name n =>
    intro site
    have arguments : ∀ b, Builtin.ofName? n = some b →
        Fault.of? (.ok [] : Except Fault (List (Argument Check))) = none := fun _ _ => rfl
    rw [Json.asRule, Site.of?_enter, Site.of?_ruleArgument_data (fun _ _ => rfl) arguments]
    simp only [Json.walk, findSome?_cons_or, List.findSome?_nil, Option.or_none]
    rfl
  | step n ps ih =>
    intro site
    have arguments : ∀ b, Builtin.ofName? n = some b →
        Fault.of? (if b.wantsRules then Json.asRules options site.deeper ps else .ok (ps.map .value)) =
          (if n = "every" then Json.walkAll site.deeper ps else []).findSome? (Stop.fault? options.maxDepth) := by
      intro b hb
      rw [Builtin.wantsRules_of_ofName? hb]
      by_cases hn : n = "every"
      · rw [if_pos (decide_eq_true hn), if_pos hn, Json.asRules_eq, Json.walkAll_eq]
        exact Fault.of?_mapM fun p hp => ih p hp site.deeper
      · rw [if_neg (fun h => hn (of_decide_eq_true h)), if_neg hn]
        rfl
    have bare : ps.isEmpty = true → (Modifier.ofName? n).isSome = true →
        (if n = "every" then Json.walkAll site.deeper ps else []).findSome? (Stop.fault? options.maxDepth) = none := by
      intro hps _
      rw [List.isEmpty_iff.mp hps, Json.walkAll, ite_self]
      rfl
    rw [Json.asRule, Site.of?_enter, Site.of?_ruleArgument_data bare arguments]
    simp only [Json.walk, findSome?_cons_or, List.cons_append, List.findSome?_append, List.findSome?_nil,
      Option.or_none, Option.or_assoc]
    rfl
  | other v hv =>
    intro site
    rw [Json.asRule_of_not_isRuleData hv, Json.walk_of_not_isRuleData hv]
    simp only [List.findSome?_cons, List.findSome?_nil, Stop.fault?, Site.path_look]
    simp [Site.look, hv]

/-! ## Specifications -/

section Induction

variable {options : Options}

/-- A token has the fault of the first stop of its walk. -/
def Token.Walked (options : Options) (t : Token) : Prop :=
  ∀ site : Site, Fault.of? (t.clause options site) = (t.walk site).findSome? (Stop.fault? options.maxDepth)

def Parameter.Walked (options : Options) (p : Parameter) : Prop :=
  ∀ (site : Site) (w : Bool),
    Fault.of? (p.argument options site w) = (p.walk site w).findSome? (Stop.fault? options.maxDepth)

def Declaration.Walked (options : Options) (d : Declaration) : Prop :=
  ∀ site : Site, Fault.of? (d.rule options site) = (d.walk site).findSome? (Stop.fault? options.maxDepth)

def Specification.Walked (options : Options) (s : Specification) : Prop :=
  ∀ depth : Nat, Fault.of? (s.rulesAt options depth) = (s.walk depth).findSome? (Stop.fault? options.maxDepth)

theorem Parameter.of?_arguments {ps : List Parameter} (hps : ∀ p ∈ ps, p.Walked options) (site : Site) (w : Bool) :
    Fault.of? (Parameter.arguments options site w ps) =
      (Parameter.walkAll site w ps).findSome? (Stop.fault? options.maxDepth) := by
  rw [Parameter.arguments_eq, Parameter.walkAll_eq]
  exact Fault.of?_mapM fun p hp => hps p hp site w

theorem Token.walked_named (n : String) {ps : List Parameter} (hps : ∀ p ∈ ps, p.Walked options) :
    (Token.step (.name n) ps).Walked options := by
  intro site
  rw [Token.clause, Token.walk, findSome?_cons_or]
  refine Clause.of?_ofName (fun hb _ => ?_) fun b hb => ?_
  · rw [List.isEmpty_iff.mp hb]; rfl
  · rw [Builtin.wantsRules_of_ofName? hb]
    exact Parameter.of?_arguments hps site _

theorem Token.walked_name (n : String) : (Token.name n).Walked options := by
  intro site
  rw [Token.clause, Token.walk, findSome?_cons_or]
  exact Clause.of?_ofName (fun _ _ => rfl) fun _ _ => rfl

theorem Token.walked_inline (q : Predicate) {ps : List Parameter} (hps : ∀ p ∈ ps, p.Walked options) :
    (Token.step (.predicate q) ps).Walked options := by
  intro site
  rw [Token.clause, Token.walk, Fault.of?_bind_pure]
  exact Parameter.of?_arguments hps site false

theorem Declaration.walked {ts : List Token} (hts : ∀ t ∈ ts, t.Walked options) :
    (Declaration.ofTokens ts).Walked options := by
  intro site
  have clauses : Fault.of? (Token.clauses options site ts) =
      (Token.walkAll site ts).findSome? (Stop.fault? options.maxDepth) := by
    rw [Token.clauses_eq, Token.walkAll_eq]
    exact Fault.of?_mapM fun t ht => hts t ht site
  rw [Declaration.rule, Declaration.clauses, Rule.of?_bind_ofClauses fun cs hcs => Token.hasStep_of_clauses hcs,
    clauses, Declaration.walk, List.findSome?_append, findSome?_cons_or, List.findSome?_nil, Option.or_none]

theorem Parameter.walked_rule {d : Declaration} (hd : d.Walked options) : (Parameter.rule d).Walked options := by
  intro site w
  rw [Parameter.argument, Site.of?_enter, Site.of?_ruleArgument, Parameter.walk, findSome?_cons_or, ← hd site.deeper]
  rfl

theorem Parameter.walked_spec {s : Specification} (hs : s.Walked options) : (Parameter.spec s).Walked options := by
  intro site w
  rw [Parameter.argument, Site.of?_enter, Parameter.walk, findSome?_cons_or, List.findSome?_map]
  have within : Stop.fault? options.maxDepth ∘ Stop.within site.field =
      Option.map (Fault.within site.field) ∘ Stop.fault? options.maxDepth :=
    funext fun x => Stop.fault?_within _ _ x
  rw [within, ← List.map_findSome?]
  refine congrArg (Option.or _) (Eq.trans ?_ (congrArg (Option.map _) (hs site.deeper.depth)))
  cases s.rulesAt options site.deeper.depth <;> rfl

theorem Specification.walked {fs : List (String × Declaration)} (hfs : ∀ f ∈ fs, f.2.Walked options) :
    (Specification.ofFields fs).Walked options := by
  intro depth
  rw [Specification.rulesAt, Specification.rulesOf_eq, Specification.walk, Specification.walkAll_eq]
  exact Fault.of?_mapM fun f hf => hfs f hf _

/-- Everything in a specification has the fault of the first stop of its walk. -/
theorem Specification.walked_cases (options : Options) :
    Specification.Cases (Token.Walked options) (Parameter.Walked options) (Declaration.Walked options)
      (Specification.Walked options) where
  name := Token.walked_name
  predicate _ _ := rfl
  named n _ hps := Token.walked_named n hps
  inline q _ hps := Token.walked_inline q hps
  modifier _ _ := rfl
  value v := by
    intro site w
    cases w with
    | true => exact Json.walked v site
    | false => rfl
  rule _ hd := Parameter.walked_rule hd
  spec _ hs := Parameter.walked_spec hs
  tokens _ hts := Declaration.walked hts
  fields _ hfs := Specification.walked hfs

end Induction

/-! ## Outcomes -/

theorem Specification.of?_rules (s : Specification) (options : Options) :
    Fault.of? (s.rules options) = (s.walk 0).findSome? (Stop.fault? options.maxDepth) :=
  (Specification.walked_cases options).specification s 0

theorem Specification.of?_compile (s : Specification) (options : Options) :
    Fault.of? (s.compile options) = Fault.of? (s.rules options) :=
  Fault.of?_bind_pure _ _

/-- Whether a specification compiles is whether its walk is without faults. -/
theorem Specification.compiles_iff (s : Specification) (options : Options) :
    (∃ V, s.compile options = .ok V) ↔ ∀ x ∈ s.walk 0, x.fault? options.maxDepth = none := by
  rw [← Fault.of?_eq_none, Specification.of?_compile, Specification.of?_rules, List.findSome?_eq_none_iff]

theorem Specification.firstFault_iff {s : Specification} {limit : Nat} {e : Fault} :
    s.FirstFault limit e ↔ (s.walk 0).findSome? (Stop.fault? limit) = some e := by
  rw [List.findSome?_eq_some_iff, Specification.FirstFault]
  constructor
  · rintro ⟨before, x, after, h, hb, hx⟩
    exact ⟨before, x, after, h, hx, hb⟩
  · rintro ⟨before, x, after, h, hx, hb⟩
    exact ⟨before, x, after, h, hb, hx⟩

/-- **Compilation reports the first fault**: it succeeds iff no stop of the walk is at fault, and otherwise its fault is
that of the first stop which is; so do the rules of a specification. -/
theorem Specification.compile_firstFault (s : Specification) (options : Options) :
    ((∃ V, s.compile options = .ok V) ↔ ∀ x ∈ s.walk 0, x.fault? options.maxDepth = none) ∧
    (∀ e, s.compile options = .error e ↔ s.FirstFault options.maxDepth e) ∧
    ((∃ rules, s.rules options = .ok rules) ↔ ∀ x ∈ s.walk 0, x.fault? options.maxDepth = none) ∧
    (∀ e, s.rules options = .error e ↔ s.FirstFault options.maxDepth e) := by
  have rules := Specification.of?_rules s options
  have compile := (Specification.of?_compile s options).trans rules
  refine ⟨?_, fun e => ?_, ?_, fun e => ?_⟩
  · rw [← Fault.of?_eq_none, compile, List.findSome?_eq_none_iff]
  · rw [← Fault.of?_eq_some, compile, Specification.firstFault_iff]
  · rw [← Fault.of?_eq_none, rules, List.findSome?_eq_none_iff]
  · rw [← Fault.of?_eq_some, rules, Specification.firstFault_iff]

/-- The end of a nested declaration comes before the unknown name in the field after it. -/
example : (Specification.ofFields [
    ("items", .ofTokens [.everySpec (.ofFields [("name", .ofTokens [.name "optional"])])]),
    ("note", .ofTokens [.name "text"])]).compile {} = .error (.emptyRule "items.name") := rfl

end BodySpec
