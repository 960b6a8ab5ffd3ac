import BodySpec.Proofs.FirstFault
import BodySpec.Proofs.Replacement

/-!
# Rules written as data

A value that stands for a rule says in data what a declaration says in tokens (`Json.explicit?`): a name is the name,
and an array is a step with parameters, which stand for rules themselves if the step is `every`. Compilation reads such
a value one level at a time and never makes the declaration. It does the same as if it did
(`Json.asRule_eq_of_explicit?`), so that values may be written out as rules, or rules as values, at any depth
(`Specification.compile_writtenOut`).

A value that cannot be written out has another in it that stands for no rule
(`Json.exists_within_of_explicit?_eq_none`), and the walk through a specification stops at whatever is in a value that
it stops at (`Specification.withinClosed_cases`). So there is a fault, and where the walk gets to a value that stands
for no rule, the text of just this value is reported.
-/

namespace BodySpec

/-! ## Explicit forms -/

namespace Json

mutual

/-- The declaration that a value stands for, if it stands for one all the way down. -/
def explicit? : Json → Option Declaration
  | string n => some (.ofTokens [.name n])
  | array (string n :: ps) =>
    if n = "every" then (explicitRules? ps).map fun qs => .ofTokens [.step (.name n) qs]
    else some (.ofTokens [.step (.name n) (ps.map .value)])
  | _ => none

/-- Parameters of `every` as rules. -/
def explicitRules? : List Json → Option (List Parameter)
  | [] => some []
  | v :: vs => do
    let d ← v.explicit?
    let qs ← explicitRules? vs
    return .rule d :: qs

end

theorem explicit?_of_not_isRuleData {v : Json} (h : v.isRuleData = false) : v.explicit? = none := by
  unfold explicit?
  split <;> first | rfl | simp [isRuleData] at h

theorem explicitRules?_cons_eq_some {v : Json} {vs : List Json} {qs : List Parameter} :
    explicitRules? (v :: vs) = some qs ↔
      ∃ d rest, v.explicit? = some d ∧ explicitRules? vs = some rest ∧ qs = .rule d :: rest := by
  simp only [explicitRules?, Option.bind_eq_bind, Option.bind_eq_some_iff, Option.pure_def, Option.some.injEq]
  constructor
  · rintro ⟨d, hd, rest, hr, rfl⟩
    exact ⟨d, rest, hd, hr, rfl⟩
  · rintro ⟨d, rest, hd, hr, rfl⟩
    exact ⟨d, hd, rest, hr, rfl⟩

theorem isEmpty_of_explicitRules? {vs : List Json} {qs : List Parameter} (h : explicitRules? vs = some qs) :
    vs.isEmpty = qs.isEmpty := by
  cases vs with
  | nil =>
    cases h
    rfl
  | cons v vs =>
    obtain ⟨_, _, _, _, rfl⟩ := explicitRules?_cons_eq_some.mp h
    rfl

/-- The step that an array stands for: of `every`, the parameters are rules. -/
theorem explicit?_step_eq_some {n : String} {ps : List Json} {d : Declaration} :
    (array (string n :: ps)).explicit? = some d ↔
      ∃ qs, (if n = "every" then explicitRules? ps = some qs else qs = ps.map .value) ∧
        d = .ofTokens [.step (.name n) qs] := by
  rw [explicit?]
  by_cases hn : n = "every"
  · rw [if_pos hn, Option.map_eq_some_iff]
    simp only [if_pos hn, eq_comm (b := d)]
  · simp only [if_neg hn, exists_eq_left, Option.some.injEq, eq_comm (b := d)]

theorem exists_of_explicitRules?_eq_none {vs : List Json} (h : explicitRules? vs = none) :
    ∃ v ∈ vs, v.explicit? = none := by
  induction vs with
  | nil => cases h
  | cons v vs ih =>
    cases first : v.explicit? with
    | none => exact ⟨v, List.mem_cons_self, first⟩
    | some d =>
      have others : explicitRules? vs = none := by
        cases rest : explicitRules? vs with
        | none => rfl
        | some qs =>
          rw [explicitRules?_cons_eq_some.mpr ⟨d, qs, first, rest, rfl⟩] at h
          cases h
      obtain ⟨w, hw, none⟩ := ih others
      exact ⟨w, List.mem_cons_of_mem v hw, none⟩

/-- A value in another that has to stand for a rule, or that value itself: parameters of `every` have to, too. -/
inductive Within (w : Json) : Json → Prop
  | self : Within w w
  | parameter {v : Json} {ps : List Json} (hv : v ∈ ps) (h : Within w v) : Within w (array (string "every" :: ps))

/-- What cannot be written out has something in it that stands for no rule. -/
theorem exists_within_of_explicit?_eq_none {v : Json} (h : v.explicit? = none) :
    ∃ w : Json, w.Within v ∧ w.isRuleData = false := by
  induction v using rule_induction with
  | name n => cases h
  | step n ps ih =>
    rw [explicit?] at h
    by_cases hn : n = "every"
    · subst hn
      rw [if_pos rfl, Option.map_eq_none_iff] at h
      obtain ⟨p, hp, none⟩ := exists_of_explicitRules?_eq_none h
      obtain ⟨w, hw, hm⟩ := ih p hp none
      exact ⟨w, .parameter hp hw, hm⟩
    · rw [if_neg hn] at h
      cases h
  | other v hv => exact ⟨v, .self, hv⟩

end Json

/-! ## Values and rules become the same -/

theorem Declaration.clauses_singleton (options : Options) (site : Site) (t : Token) :
    (Declaration.ofTokens [t]).clauses options site = (do let clause ← t.clause options site; return [clause]) := by
  rw [Declaration.clauses, Token.clauses, Token.clauses]
  rfl

/-- Plain values are arguments as they are. -/
theorem Parameter.arguments_value (options : Options) (site : Site) (vs : List Json) :
    Parameter.arguments options site false (vs.map .value) = .ok (vs.map .value) := by
  induction vs with
  | nil => rfl
  | cons v vs ih =>
    rw [List.map_cons, Parameter.arguments, ih]
    rfl

theorem Json.asRules_eq_of_explicitRules? {options : Options} {ps : List Json}
    (hps : ∀ p ∈ ps, ∀ d, p.explicit? = some d → ∀ site : Site,
      p.asRule options site = (Parameter.rule d).argument options site true)
    {qs : List Parameter} (h : Json.explicitRules? ps = some qs) (site : Site) :
    Json.asRules options site ps = Parameter.arguments options site true qs := by
  induction ps generalizing qs with
  | nil =>
    cases h
    rfl
  | cons p ps ih =>
    obtain ⟨d, rest, hd, hr, rfl⟩ := Json.explicitRules?_cons_eq_some.mp h
    rw [Json.asRules, Parameter.arguments, hps p List.mem_cons_self d hd site,
      ih (fun q hq => hps q (List.mem_cons_of_mem p hq)) hr]

/-- The rule that a value stands for is that of its explicit form, and so is its fault. -/
theorem Json.asRule_eq_of_explicit? {options : Options} {v : Json} {d : Declaration} (h : v.explicit? = some d)
    (site : Site) : v.asRule options site = (Parameter.rule d).argument options site true := by
  induction v using Json.rule_induction generalizing d site with
  | name n =>
    cases h
    rw [Json.asRule, Parameter.argument]
    refine congrArg (site.enter options) (funext fun inner => ?_)
    rw [Declaration.clauses_singleton, Token.clause]
  | step n ps ih =>
    obtain ⟨qs, hqs, rfl⟩ := Json.explicit?_step_eq_some.mp h
    obtain ⟨bare, arguments⟩ : ps.isEmpty = qs.isEmpty ∧ ∀ site : Site,
        (if n = "every" then Json.asRules options site ps else .ok (ps.map .value)) =
          Parameter.arguments options site (n = "every") qs := by
      by_cases hn : n = "every"
      · rw [if_pos hn] at hqs
        refine ⟨Json.isEmpty_of_explicitRules? hqs, fun site => ?_⟩
        rw [if_pos hn, decide_eq_true hn]
        exact Json.asRules_eq_of_explicitRules? (fun p hp d hd site => ih p hp hd site) hqs site
      · rw [if_neg hn] at hqs
        refine ⟨by rw [hqs, List.isEmpty_map], fun site => ?_⟩
        rw [if_neg hn, decide_eq_false hn, hqs, Parameter.arguments_value]
    rw [Json.asRule, Parameter.argument, bare]
    refine congrArg (site.enter options) (funext fun inner => congrArg (inner.ruleArgument options) ?_)
    rw [Declaration.clauses_singleton, Token.clause]
    refine congrArg (· >>= _) (Clause.ofName_congr ?_)
    simpa using arguments inner
  | other v hv =>
    rw [Json.explicit?_of_not_isRuleData hv] at h
    cases h

/-- A plain parameter of `every` is written out as a rule. -/
inductive Declaration.WrittenOut : Declaration → Declaration → Prop
  | intro {v : Json} {d : Declaration} (h : v.explicit? = some d) (before after : List Token)
      (params params' : List Parameter) :
      Declaration.WrittenOut
        (.ofTokens (before ++ .step (.name "every") (params ++ .value v :: params') :: after))
        (.ofTokens (before ++ .step (.name "every") (params ++ .rule d :: params') :: after))

theorem Declaration.WrittenOut.sameRule {d e : Declaration} (h : Declaration.WrittenOut d e) : d.SameRule e := by
  obtain ⟨h, before, after, params, params'⟩ := h
  rename_i v d
  have parameters : Parameter.SameArgument (Head.name "every").wantsRules (.value v) (.rule d) :=
    fun options site => Json.asRule_eq_of_explicit? h site
  exact Declaration.sameRule_of_token (Token.sameClause_step parameters params params') before after

/-! ## The walk stops at what is in a value -/

/-- With a value that has to stand for a rule, stops are at whatever is in it. -/
def WithinClosed (stops : List Stop) : Prop :=
  ∀ x ∈ stops, ∀ v w : Json, x.sight = .data v → w.Within v → { x with sight := .data w } ∈ stops

namespace WithinClosed

variable {stops others : List Stop}

theorem nil : WithinClosed [] := fun _ hx => by cases hx

theorem append (h : WithinClosed stops) (h' : WithinClosed others) : WithinClosed (stops ++ others) := by
  intro x hx v w hv hw
  rcases List.mem_append.mp hx with hx | hx
  · exact List.mem_append_left _ (h x hx v w hv hw)
  · exact List.mem_append_right _ (h' x hx v w hv hw)

/-- A stop at no value. -/
theorem look (site : Site) {sight : Sight} (hs : ∀ v, sight ≠ .data v) : WithinClosed [site.look sight] := by
  intro x hx v w hv
  rw [List.mem_singleton.mp hx] at hv
  exact absurd hv (hs v)

theorem cons (site : Site) {sight : Sight} (hs : ∀ v, sight ≠ .data v) (h : WithinClosed stops) :
    WithinClosed (site.look sight :: stops) :=
  (look site hs).append h

theorem within (parent : String) (h : WithinClosed stops) : WithinClosed (stops.map (Stop.within parent)) := by
  intro x hx v w hv hw
  obtain ⟨y, hy, rfl⟩ := List.mem_map.mp hx
  exact List.mem_map.mpr ⟨_, h y hy v w hv hw, rfl⟩

/-- A stop at a value, with stops at what is in it. -/
theorem data (site : Site) {v : Json} (h : WithinClosed stops)
    (hv : ∀ w : Json, w.Within v → w = v ∨ site.look (.data w) ∈ stops) :
    WithinClosed (site.look (.data v) :: stops) := by
  intro x hx u w hu hw
  rcases List.mem_cons.mp hx with rfl | hx
  · cases hu
    rcases hv w hw with rfl | inside
    · exact List.mem_cons_self
    · exact List.mem_cons_of_mem _ inside
  · exact List.mem_cons_of_mem _ (h x hx u w hu hw)

theorem flatMap {α : Type} {walk : α → List Stop} {xs : List α} (h : ∀ x ∈ xs, WithinClosed (walk x)) :
    WithinClosed (xs.flatMap walk) := by
  induction xs with
  | nil => exact nil
  | cons x xs ih =>
    have others := ih fun y hy => h y (List.mem_cons_of_mem x hy)
    exact (h x List.mem_cons_self).append others

end WithinClosed

/-- The walk through a value stops at it first. -/
theorem Json.look_mem_walk (v : Json) (site : Site) : site.look (.data v) ∈ v.walk site := by
  unfold Json.walk
  split <;> exact List.mem_cons_self

/-- A value that stands for a rule: its name, its parameters, its end. -/
theorem WithinClosed.ruleData (site : Site) {v : Json} {n : String} {bare hasStep : Bool} {stops : List Stop}
    (h : WithinClosed stops) (hv : ∀ w : Json, w.Within v → w = v ∨ site.look (.data w) ∈ stops) :
    WithinClosed (site.look (.data v) :: site.look (.content (site.depth + 1)) :: site.look (.name n bare) :: stops ++
      [site.look (.ending hasStep)]) := by
  have ended : WithinClosed (stops ++ [site.look (.ending hasStep)]) := h.append (look site fun _ h => by cases h)
  have named : WithinClosed (site.look (.name n bare) :: (stops ++ [site.look (.ending hasStep)])) :=
    ended.cons site fun _ h => by cases h
  refine .data site (named.cons site fun _ h => by cases h) fun w hw => (hv w hw).imp_right fun inside => ?_
  exact .tail _ (.tail _ (List.mem_append_left _ inside))

theorem Json.walk_withinClosed (v : Json) : ∀ site : Site, WithinClosed (v.walk site) := by
  induction v using Json.rule_induction with
  | name n =>
    intro site
    refine WithinClosed.ruleData site .nil fun w hw => ?_
    cases hw
    exact .inl rfl
  | step n ps ih =>
    intro site
    refine WithinClosed.ruleData site ?_ fun w hw => ?_
    · split
      · rw [Json.walkAll_eq]
        exact .flatMap fun p hp => ih p hp site.deeper
      · exact .nil
    · cases hw with
      | self => exact .inl rfl
      | @parameter p _ hp inside =>
        -- the walk through the parameter stops at it and at what is in it
        have stop : site.look (.data w) ∈ p.walk site.deeper :=
          ih p hp site.deeper _ (p.look_mem_walk site.deeper) p w rfl inside
        rw [if_pos rfl, Json.walkAll_eq]
        exact .inr (List.mem_flatMap.mpr ⟨p, hp, stop⟩)
  | other v hv =>
    intro site
    rw [Json.walk_of_not_isRuleData hv]
    refine WithinClosed.nil.data site fun w hw => ?_
    cases hw with
    | self => exact .inl rfl
    | parameter _ _ => cases hv

/-- The walk through a specification stops at whatever is in a value that it stops at. -/
theorem Specification.withinClosed_cases :
    Specification.Cases (fun t => ∀ site, WithinClosed (t.walk site))
      (fun p => ∀ site w, WithinClosed (p.walk site w))
      (fun d => ∀ site, WithinClosed (d.walk site)) (fun s => ∀ depth, WithinClosed (s.walk depth)) where
  name n site := .look site fun _ h => by cases h
  predicate _ _ := .nil
  named n ps hps site := by
    rw [Token.walk, Parameter.walkAll_eq]
    exact .cons site (fun _ h => by cases h) (.flatMap fun p hp => hps p hp site _)
  inline q ps hps site := by
    rw [Token.walk, Parameter.walkAll_eq]
    exact .flatMap fun p hp => hps p hp site false
  modifier _ _ := .nil
  value v site w := by
    cases w with
    | true => exact v.walk_withinClosed site
    | false => exact .nil
  rule d hd site _ := .cons site (fun _ h => by cases h) (hd site.deeper)
  spec s hs site _ := .cons site (fun _ h => by cases h) ((hs (site.depth + 1)).within site.field)
  tokens ts hts site := by
    rw [Declaration.walk, Token.walkAll_eq]
    exact .append (.flatMap fun t ht => hts t ht site) (.look site fun _ h => by cases h)
  fields fs hfs depth := by
    rw [Specification.walk, Specification.walkAll_eq]
    exact .flatMap fun f hf => hfs f hf _

/-! ## Specifications -/

/-- The walk gets to a stop: there is no fault before. -/
def Specification.GetsTo (s : Specification) (limit : Nat) (x : Stop) : Prop :=
  ∃ before after, s.walk 0 = before ++ x :: after ∧ ∀ y ∈ before, y.fault? limit = none

/-- The fault of a stop that the walk gets to is that of the specification. -/
theorem Specification.compile_of_getsTo {s : Specification} {options : Options} {x : Stop} {e : Fault}
    (h : s.GetsTo options.maxDepth x) (hx : x.fault? options.maxDepth = some e) : s.compile options = .error e := by
  obtain ⟨before, after, walk, faultless⟩ := h
  have first : s.FirstFault options.maxDepth e := ⟨before, x, after, walk, faultless, hx⟩
  rw [← Fault.of?_eq_some, Specification.of?_compile, Specification.of?_rules]
  exact Specification.firstFault_iff.mp first

/-- **Rules written as data mean what they say.** Where plain parameters of `every` are written out as rules, at any
depth and any number of times, the outcome of compilation is the same: the same fault, or the same validator. A value
that has to stand for a rule and cannot be written out has a value in it that stands for no rule, and there is a fault.
The walk stops at such a value in the same field, and if it gets there, the text of that value is reported for the
field. -/
theorem Specification.compile_writtenOut (s : Specification) (options : Options) :
    (∀ s', s.Interchanged Declaration.WrittenOut s' → s.compile options = s'.compile options) ∧
    ∀ x ∈ s.walk 0, ∀ v : Json, x.sight = .data v → v.explicit? = none →
      (∃ e, s.compile options = .error e) ∧
      (∃ w : Json, w.Within v ∧ w.isRuleData = false ∧ { x with sight := .data w } ∈ s.walk 0) ∧
      ∀ w : Json, w.Within v → w.isRuleData = false → s.GetsTo options.maxDepth { x with sight := .data w } →
        s.compile options = .error (.unknownValidator x.path w.text) := by
  have malformed : ∀ (x : Stop) (w : Json), w.isRuleData = false →
      Stop.fault? options.maxDepth { x with sight := .data w } = some (.unknownValidator x.path w.text) := by
    intro x w hw
    simp [Stop.fault?, Stop.path, hw]
  refine ⟨fun s' h => ?_, fun x hx v hv none => ?_⟩
  · exact (Specification.sameRules_of_interchanged (fun _ _ => Declaration.WrittenOut.sameRule) h).compile_eq options
  · obtain ⟨w, hw, hm⟩ := Json.exists_within_of_explicit?_eq_none none
    have stop := Specification.withinClosed_cases.specification s 0 x hx v w hv hw
    refine ⟨?_, ⟨w, hw, hm, stop⟩,
      fun w _ hm reached => Specification.compile_of_getsTo reached (malformed x w hm)⟩
    cases hc : s.compile options with
    | error e => exact ⟨e, rfl⟩
    | ok V =>
      have faultless := (s.compiles_iff options).mp ⟨V, hc⟩ _ stop
      rw [malformed x w hm] at faultless
      cases faultless

/-- Rows of what a value in data stands for. -/
def rowsOf (v : Json) : Specification := .ofFields [("rows", .ofTokens [.step (.name "every") [.value v]])]

/-- Rows of what a declaration allows. -/
def rowsBy (d : Declaration) : Specification := .ofFields [("rows", .ofTokens [.step (.name "every") [.rule d]])]

/-- Lists of short texts. -/
def shortTexts : Json := .array [.string "every", .array [.string "string", .number (.int 1), .number (.int 3)]]

/-- Lists of nothing that could be asked for. -/
def sevens : Json := .array [.string "every", .number (.int 7)]

/-- Rows of short texts compile to the same, in data and written out. Of rows of sevens it is the seven that is
reported. -/
theorem rowsOf_writtenOut :
    ∃ d, shortTexts.explicit? = some d ∧ (rowsOf shortTexts).compile {} = (rowsBy d).compile {} ∧
      (∃ V, (rowsBy d).compile {} = .ok V) ∧ sevens.explicit? = none ∧
      (rowsOf sevens).compile {} = .error (.unknownValidator "rows" "7") := by
  have explicit : shortTexts.explicit? = some _ := rfl
  have same := (Specification.compile_writtenOut (rowsOf shortTexts) {}).1 _
    (.rel _ _ (.field (.here (.intro explicit [] [] [] [])) [] [] "rows"))
  have within : Json.Within (.number (.int 7)) sevens := .parameter List.mem_cons_self .self
  have before : ∀ y ∈ ((rowsOf sevens).walk 0).take 4, y.fault? 32 = none := by decide
  have reported := ((Specification.compile_writtenOut (rowsOf sevens) {}).2
    { outer := [], field := "rows", sight := .data sevens } (.tail _ (.head _)) sevens rfl rfl).2.2
    (.number (.int 7)) within rfl ⟨_, _, rfl, before⟩
  exact ⟨_, explicit, same, ⟨_, rfl⟩, rfl, reported⟩

end BodySpec
