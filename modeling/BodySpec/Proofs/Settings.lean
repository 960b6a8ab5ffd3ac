import BodySpec.Proofs.Resolution

/-!
# What the rules depend on

Of all options, only the observer gets into the rules of a specification, and of a site only the field: two compilations
that succeed and have the same observer make the same rules, whatever their limits of depth and at whatever depth they
begin, and whether they are strict or not (`Specification.rulesAt_unique`, `Specification.validator_unique`). So a
nested check is the same in both, at any depth.

The induction is over the specification. It compares the two successes construct by construct, by what each can be
(`Resolution`).
-/

namespace BodySpec

/-- Two successes over a list are the same if they are on each of its elements. -/
theorem mapM_unique {α β : Type} {f g : α → Except Fault β} {xs : List α} {ys zs : List β}
    (h : ∀ x ∈ xs, ∀ y z, f x = .ok y → g x = .ok z → y = z)
    (hf : xs.mapM f = .ok ys) (hg : xs.mapM g = .ok zs) :
    ys = zs := by
  replace hf := mapM_eq_ok.mp hf
  replace hg := mapM_eq_ok.mp hg
  induction hf generalizing zs with
  | nil =>
    cases hg
    rfl
  | @cons x y xs ys hy _ ih =>
    cases hg with
    | @cons _ z _ zs hz hzs =>
      have first : y = z := h x List.mem_cons_self y z hy hz
      have others : ys = zs := ih (fun w hw => h w (List.mem_cons_of_mem x hw)) hzs
      rw [first, others]

/-- A name has one clause, if its validator has the same arguments. -/
theorem Clause.ofName_unique {field field' n : String} {bare bare' : Bool}
    {arguments arguments' : Bool → Except Fault (List (Argument Check))} {c c' : Clause}
    (h : ∀ w args args', arguments w = .ok args → arguments' w = .ok args' → args = args')
    (hc : ofName field n bare arguments = .ok c) (hc' : ofName field' n bare' arguments' = .ok c') : c = c' := by
  rcases ofName_eq_ok.mp hc with ⟨m, hm, _, rfl⟩ | ⟨b, args, hm, hb, hargs, rfl⟩
  · rcases ofName_eq_ok.mp hc' with ⟨m', hm', _, rfl⟩ | ⟨b', args', hm', _, _, rfl⟩
    · rw [Option.some.inj (hm.symm.trans hm')]
    · rw [hm] at hm'
      cases hm'
  · rcases ofName_eq_ok.mp hc' with ⟨m', hm', _, rfl⟩ | ⟨b', args', hm', hb', hargs', rfl⟩
    · rw [hm] at hm'
      cases hm'
    · obtain rfl : b = b' := Option.some.inj (hb.symm.trans hb')
      rw [h _ args args' hargs hargs']

section Induction

variable (options options' : Options)

/-! ## Rules written as data -/

/-- A value that stands for a rule becomes the same check. -/
def Json.Unique (v : Json) : Prop :=
  ∀ (site site' : Site) (a a' : Argument Check),
    v.asRule options site = .ok a → v.asRule options' site' = .ok a' →
    site.field = site'.field → a = a'

variable {options options'}

theorem Json.unique_step (ho : options.observer = options'.observer) {n : String} {ps : List Json}
    (hps : ∀ p ∈ ps, p.Unique options options') : (Json.array (.string n :: ps)).Unique options options' := by
  intro site site' a a' h h' hs
  obtain ⟨_, b, args, _, hb, hargs, rfl⟩ := Json.asRule_step_eq_ok.mp h
  obtain ⟨_, b', args', _, hb', hargs', rfl⟩ := Json.asRule_step_eq_ok.mp h'
  obtain rfl : b = b' := Option.some.inj (hb.symm.trans hb')
  have same : args = args' := by
    cases hw : b.wantsRules with
    | true =>
      rw [hw, if_pos rfl, Json.asRules_eq] at hargs hargs'
      refine mapM_unique (fun p hp a a' ha ha' => ?_) hargs hargs'
      exact hps p hp _ _ a a' ha ha' hs
    | false =>
      rw [hw] at hargs hargs'
      cases hargs
      cases hargs'
      rfl
  rw [same, hs, ho]

theorem Json.unique (ho : options.observer = options'.observer) (v : Json) : v.Unique options options' := by
  induction v using Json.rule_induction with
  | name n =>
    intro site site' a a' h h'
    rw [Json.asRule_string] at h h'
    exact Json.unique_step ho (fun _ hp => by cases hp) site site' a a' h h'
  | step n ps ih => exact Json.unique_step ho ih
  | other v hv =>
    intro site site' a a' h
    rw [Json.asRule_of_not_isRuleData hv] at h
    cases h

/-! ## Specifications -/

variable (options options')

/-- A token becomes the same clause, wherever it stands in a field. -/
def Token.Unique (t : Token) : Prop :=
  ∀ (site site' : Site) (c c' : Clause), t.clause options site = .ok c → t.clause options' site' = .ok c' →
    site.field = site'.field → c = c'

def Parameter.Unique (p : Parameter) : Prop :=
  ∀ (site site' : Site) (w : Bool) (a a' : Argument Check), p.argument options site w = .ok a →
    p.argument options' site' w = .ok a' → site.field = site'.field → a = a'

def Declaration.Unique (d : Declaration) : Prop :=
  ∀ (site site' : Site) (r r' : Rule), d.rule options site = .ok r → d.rule options' site' = .ok r' →
    site.field = site'.field → r = r'

def Specification.Unique (s : Specification) : Prop :=
  ∀ (depth depth' : Nat) (rules rules' : List Rule),
    s.rulesAt options depth = .ok rules → s.rulesAt options' depth' = .ok rules' → rules = rules'

variable {options options'}

theorem Parameter.arguments_unique {ps : List Parameter} (hps : ∀ p ∈ ps, p.Unique options options')
    {site site' : Site} (hs : site.field = site'.field) (w : Bool) (args args' : List (Argument Check))
    (h : Parameter.arguments options site w ps = .ok args) (h' : Parameter.arguments options' site' w ps = .ok args') :
    args = args' := by
  rw [Parameter.arguments_eq] at h h'
  exact mapM_unique (fun p hp a a' ha ha' => hps p hp _ _ w a a' ha ha' hs) h h'

theorem Token.unique_name (n : String) : (Token.name n).Unique options options' := by
  intro site site' c c' h h' _
  rw [Token.clause] at h h'
  refine Clause.ofName_unique (fun _ args args' ha ha' => ?_) h h'
  cases ha
  cases ha'
  rfl

theorem Token.unique_named (n : String) {ps : List Parameter} (hps : ∀ p ∈ ps, p.Unique options options') :
    (Token.step (.name n) ps).Unique options options' := by
  intro site site' c c' h h' hs
  rw [Token.clause] at h h'
  exact Clause.ofName_unique (fun w => Parameter.arguments_unique hps hs w) h h'

theorem Token.unique_inline (q : Predicate) {ps : List Parameter} (hps : ∀ p ∈ ps, p.Unique options options') :
    (Token.step (.predicate q) ps).Unique options options' := by
  intro site site' c c' h h' hs
  rw [Token.clause] at h h'
  obtain ⟨args, hargs, hc⟩ := bind_eq_ok.mp h
  obtain ⟨args', hargs', hc'⟩ := bind_eq_ok.mp h'
  cases hc
  cases hc'
  rw [Parameter.arguments_unique hps hs false args args' hargs hargs']

theorem Declaration.unique {ts : List Token} (hts : ∀ t ∈ ts, t.Unique options options') :
    (Declaration.ofTokens ts).Unique options options' := by
  intro site site' r r' h h' hs
  obtain ⟨cs, hcs, hr⟩ := Declaration.rule_eq_ok.mp h
  obtain ⟨cs', hcs', hr'⟩ := Declaration.rule_eq_ok.mp h'
  have same : cs = cs' :=
    mapM_unique (fun t ht c c' hc hc' => hts t ht _ _ c c' hc hc' hs) (mapM_eq_ok.mpr hcs) (mapM_eq_ok.mpr hcs')
  rw [same, hs] at hr
  exact Except.ok.inj (hr.symm.trans hr')

theorem Specification.unique {fs : List (String × Declaration)} (hfs : ∀ f ∈ fs, f.2.Unique options options') :
    (Specification.ofFields fs).Unique options options' := by
  intro depth depth' rules rules' h h'
  replace h := mapM_eq_ok.mpr (Specification.rulesAt_eq_ok.mp h)
  replace h' := mapM_eq_ok.mpr (Specification.rulesAt_eq_ok.mp h')
  refine mapM_unique (fun f hf r r' hr hr' => ?_) h h'
  exact hfs f hf _ _ r r' hr hr' rfl

theorem Specification.unique_cases (ho : options.observer = options'.observer) :
    Specification.Cases (Token.Unique options options') (Parameter.Unique options options')
      (Declaration.Unique options options') (Specification.Unique options options') where
  name := Token.unique_name
  predicate p := by
    intro site site' c c' h h' _
    cases h
    cases h'
    rfl
  named n _ hps := Token.unique_named n hps
  inline q _ hps := Token.unique_inline q hps
  modifier m := by
    intro site site' c c' h h' _
    cases h
    cases h'
    rfl
  value v := by
    intro site site' w a a' h h' hs
    cases w with
    | true => exact Json.unique ho v site site' a a' h h' hs
    | false =>
      cases h
      cases h'
      rfl
  rule d hd := by
    intro site site' w a a' h h' hs
    obtain ⟨_, r, hr, rfl⟩ := Parameter.argument_rule_eq_ok.mp h
    obtain ⟨_, r', hr', rfl⟩ := Parameter.argument_rule_eq_ok.mp h'
    rw [hd _ _ r r' hr hr' hs, ho]
  spec s hs := by
    intro site site' w a a' h h' _
    obtain ⟨_, rules, hr, rfl⟩ := Parameter.argument_spec_eq_ok.mp h
    obtain ⟨_, rules', hr', rfl⟩ := Parameter.argument_spec_eq_ok.mp h'
    rw [hs _ _ rules rules' hr hr', ho]
  tokens _ hts := Declaration.unique hts
  fields _ hfs := Specification.unique hfs

end Induction

/-- The rules of a specification depend on the observer alone. -/
theorem Specification.rulesAt_unique {s : Specification} {options options' : Options} {depth depth' : Nat}
    {rules rules' : List Rule} (h : s.rulesAt options depth = .ok rules) (h' : s.rulesAt options' depth' = .ok rules')
    (ho : options.observer = options'.observer) : rules = rules' :=
  (Specification.unique_cases ho).specification s depth depth' rules rules' h h'

theorem Specification.strict_of_compile {s : Specification} {options : Options} {V : Validator}
    (h : s.compile options = .ok V) : V.strict = options.strict := by
  obtain ⟨_, _, rfl⟩ := Specification.compile_eq_ok.mp h
  rfl

/-- Validators of one specification with the same observer differ in nothing but in being strict. -/
theorem Specification.validator_unique {s : Specification} {options options' : Options} {V W : Validator}
    (hV : s.compile options = .ok V) (hW : s.compile options' = .ok W) (ho : options.observer = options'.observer) :
    V = { W with strict := V.strict } := by
  obtain ⟨rules, hr, rfl⟩ := Specification.compile_eq_ok.mp hV
  obtain ⟨rules', hr', rfl⟩ := Specification.compile_eq_ok.mp hW
  rw [Specification.rulesAt_unique hr hr' ho, ho]

end BodySpec
