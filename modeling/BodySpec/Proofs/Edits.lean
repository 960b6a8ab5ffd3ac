import BodySpec.Proofs.Observation

/-!
# More tokens accept less, more modifiers accept more

A specification is changed at one place (`Specification.Edited`): a token is put at the end of a declaration, or a field
is declared that was not. The place is at the top or, at any depth, in a rule or specification that is a parameter of a
step with a name. It is not among the parameters of a predicate, which may use the answers of nested rules in any way.

One more field, or one more token that is no modifier, narrows: what is accepted after the change was accepted before. A
modifier widens: what was accepted before is accepted after (`Specification.compile_edited`). At the place itself this
is read off the meaning (`Declaration.push_below`, `Declaration.below_push`, `Specification.insert_below`), and the
order is kept on the way up by what encloses the place: by a step, since `every` asks its first argument of each item
and other validators look at no rule (`Builtin.passes_of_below`), by a declaration and by a specification. Nulls and
absences are not affected on the way, for the modifiers of what encloses the place stay the same.
-/

namespace BodySpec

/-! ## Changes -/

/-- What is changed at a place. -/
inductive Edit where
  /-- A token is put at the end of a declaration. -/
  | push (t : Token)
  /-- A field is declared that was not. -/
  | declare (name : String) (d : Declaration)

/-- A field, or a token that is no modifier, asks for more. -/
def Edit.narrows : Edit → Bool
  | push t => t.modifier?.isNone
  | declare _ _ => true

mutual

/-- A declaration is changed at its end, or in a parameter of one of its steps that has a name. -/
inductive Declaration.Edited : Edit → Declaration → Declaration → Prop
  | push (d : Declaration) (t : Token) : Declaration.Edited (.push t) d (d.push t)
  | rule {e : Edit} {d d' : Declaration} (h : Declaration.Edited e d d') (tokens tokens' : List Token) (name : String)
      (params params' : List Parameter) :
      Declaration.Edited e
        (.ofTokens (tokens ++ .step (.name name) (params ++ .rule d :: params') :: tokens'))
        (.ofTokens (tokens ++ .step (.name name) (params ++ .rule d' :: params') :: tokens'))
  | spec {e : Edit} {s s' : Specification} (h : Specification.Edited e s s') (tokens tokens' : List Token)
      (name : String) (params params' : List Parameter) :
      Declaration.Edited e
        (.ofTokens (tokens ++ .step (.name name) (params ++ .spec s :: params') :: tokens'))
        (.ofTokens (tokens ++ .step (.name name) (params ++ .spec s' :: params') :: tokens'))

/-- A specification is changed at its end, or in the declaration of one of its fields. -/
inductive Specification.Edited : Edit → Specification → Specification → Prop
  | declare (s : Specification) (name : String) (d : Declaration) (h : s.contains name = false) :
      Specification.Edited (.declare name d) s (s.insert name d)
  | field {e : Edit} {d d' : Declaration} (h : Declaration.Edited e d d')
      (fields fields' : List (String × Declaration))
      (name : String) :
      Specification.Edited e (.ofFields (fields ++ (name, d) :: fields')) (.ofFields (fields ++ (name, d') :: fields'))

end

theorem Specification.setField_of_absent {name : String} {fs : List (String × Declaration)}
    (h : fs.lookup name = none) (d : Declaration) : Specification.setField name d fs = fs ++ [(name, d)] := by
  induction fs with
  | nil => rfl
  | cons f fs ih =>
    obtain ⟨n, e⟩ := f
    by_cases hn : n = name
    · rw [hn, List.lookup_cons_self] at h
      cases h
    · have other : (name == n) = false := by simpa using Ne.symm hn
      rw [List.lookup_cons, other] at h
      rw [Specification.setField, if_neg hn, ih h]
      rfl

/-- A new field is put at the end. -/
theorem Specification.fields_insert {s : Specification} {name : String} (h : s.contains name = false)
    (d : Declaration) : (s.insert name d).fields = s.fields ++ [(name, d)] := by
  refine Specification.setField_of_absent ?_ d
  cases hl : s.fields.lookup name with
  | none => rfl
  | some e =>
    rw [Specification.contains, Specification.get?, hl] at h
    cases h

/-- The names of the fields change only where a field is declared at the top. -/
theorem Specification.Edited.names_eq {e : Edit} {s s' : Specification} (h : Specification.Edited e s s') :
    s'.names = s.names ∨ ∃ name d, e = .declare name d ∧ s' = s.insert name d := by
  cases h with
  | declare _ name d _ => exact .inr ⟨name, d, rfl, rfl⟩
  | field _ fields fields' name => exact .inl (by simp [Specification.names, Specification.fields])

/-! ## The order of meanings -/

/-- The second argument accepts what the first accepts. -/
inductive Argument.Below : Argument (Json → Bool) → Argument (Json → Bool) → Prop
  | value (v : Json) : Argument.Below (.value v) (.value v)
  | rule {f g : Json → Bool} (h : ∀ v, f v = true → g v = true) : Argument.Below (.rule f) (.rule g)

/-- Tokens that spell the same modifier, of which the second holds where the first does. -/
def Token.Below (t u : Token) : Prop :=
  u.modifier? = t.modifier? ∧
    ∀ (context : Context) (v : Json), t.holds context v = true → u.holds context v = true

/-- The second parameter stands for an argument that accepts what that of the first accepts. -/
def Parameter.Below (p q : Parameter) : Prop :=
  ∀ (field : String) (dataAsRules : Bool), (p.meaning field dataAsRules).Below (q.meaning field dataAsRules)

/-- The second declaration allows what the first allows. -/
def Declaration.Below (d e : Declaration) : Prop :=
  ∀ (context : Context) (v : Option Json), d.allows context v = true → e.allows context v = true

/-- The second specification accepts what the first accepts. -/
def Specification.Below (s t : Specification) : Prop := ∀ body : Json, s.accepts body = true → t.accepts body = true

theorem Argument.below_refl (a : Argument (Json → Bool)) : a.Below a := by
  cases a with
  | value v => exact .value v
  | rule f => exact .rule fun _ h => h

theorem Argument.erase_of_below {args args' : List (Argument (Json → Bool))}
    (h : List.Forall₂ Argument.Below args args') :
    args.map Argument.erase = args'.map Argument.erase := by
  induction h with
  | nil => rfl
  | cons first _ ih =>
    rw [List.map_cons, List.map_cons, ih]
    cases first <;> rfl

/-- A built-in validator accepts no less if its arguments accept no less. -/
theorem Builtin.passes_of_below (b : Builtin) {args args' : List (Argument (Json → Bool))}
    (h : List.Forall₂ Argument.Below args args') {v : Json} (hp : b.passes args v = true) :
    b.passes args' v = true := by
  have erased := Argument.erase_of_below h
  cases b with
  | every =>
    cases v with
    | array items =>
      cases h with
      | nil => cases hp
      | cons first _ =>
        cases first with
        | value w => cases hp
        | rule below =>
          have all := List.all_eq_true.mp hp
          exact List.all_eq_true.mpr fun w hw => below w (all w hw)
    | _ => cases hp
  | _ =>
    simp only [Builtin.passes] at hp ⊢
    rw [← erased]
    exact hp

theorem Builtin.passesNamed_of_below (name : String) {args args' : List (Argument (Json → Bool))}
    (h : List.Forall₂ Argument.Below args args') {v : Json} (hp : Builtin.passesNamed name args v = true) :
    Builtin.passesNamed name args' v = true := by
  unfold Builtin.passesNamed at hp ⊢
  cases hb : Builtin.ofName? name with
  | none =>
    rw [hb] at hp
    cases hp
  | some b =>
    rw [hb] at hp
    exact b.passes_of_below h hp

/-! ## What encloses a place keeps the order -/

theorem Parameter.below_rule {d e : Declaration} (h : d.Below e) : (Parameter.rule d).Below (.rule e) :=
  fun field _ => .rule fun v hv => h { body := v, field } (some v) hv

theorem Parameter.below_spec {s t : Specification} (h : s.Below t) : (Parameter.spec s).Below (.spec t) :=
  fun _ _ => .rule h

theorem Parameter.meanings_below {p q : Parameter} (h : p.Below q) (before after : List Parameter) (field : String)
    (dataAsRules : Bool) :
    List.Forall₂ Argument.Below (Parameter.meanings field dataAsRules (before ++ p :: after))
      (Parameter.meanings field dataAsRules (before ++ q :: after)) := by
  induction before with
  | nil => exact .cons (h field dataAsRules) (List.forall₂_same.mpr fun a _ => a.below_refl)
  | cons r before ih => exact .cons (Argument.below_refl _) ih

/-- A step with a name holds no less if one of its parameters accepts no less. -/
theorem Token.below_step {p q : Parameter} (h : p.Below q) (name : String) (before after : List Parameter) :
    (Token.step (.name name) (before ++ p :: after)).Below (.step (.name name) (before ++ q :: after)) := by
  refine ⟨?_, fun context v ht => ?_⟩
  · cases before <;> rfl
  · rw [Token.holds] at ht ⊢
    exact Builtin.passesNamed_of_below name (Parameter.meanings_below h before after context.field _) ht

/-- A declaration allows no less if one of its tokens holds no less. -/
theorem Declaration.below_tokens {t u : Token} (h : t.Below u) (before after : List Token) :
    (Declaration.ofTokens (before ++ t :: after)).Below (.ofTokens (before ++ u :: after)) := by
  intro context v hv
  obtain ⟨modifier, holds⟩ := h
  have carries : ∀ m, (Declaration.ofTokens (before ++ u :: after)).carries m =
      (Declaration.ofTokens (before ++ t :: after)).carries m := by
    intro m
    simp only [Declaration.carries, Declaration.tokens, List.any_append, List.any_cons, modifier]
  rw [Declaration.allows_iff] at hv ⊢
  simp only [carries]
  refine hv.imp_right fun hv => hv.imp_right ?_
  rintro ⟨w, rfl, all⟩
  refine ⟨w, rfl, fun x hx hm => ?_⟩
  simp only [Declaration.tokens, List.mem_append, List.mem_cons] at all hx
  rcases hx with hx | rfl | hx
  · exact all x (.inl hx) hm
  · exact holds context w (all t (.inr (.inl rfl)) (modifier ▸ hm))
  · exact all x (.inr (.inr hx)) hm

/-- A declaration allows no less if a parameter of one of its steps accepts no less. -/
theorem Declaration.below_step {p q : Parameter} (h : p.Below q) (tokens tokens' : List Token) (name : String)
    (params params' : List Parameter) :
    (Declaration.ofTokens (tokens ++ .step (.name name) (params ++ p :: params') :: tokens')).Below
      (.ofTokens (tokens ++ .step (.name name) (params ++ q :: params') :: tokens')) :=
  Declaration.below_tokens (Token.below_step h name params params') tokens tokens'

/-- A specification accepts no less if the declaration of one field allows no less. -/
theorem Specification.below_fields {d e : Declaration} (h : d.Below e) (before after : List (String × Declaration))
    (name : String) :
    (Specification.ofFields (before ++ (name, d) :: after)).Below (.ofFields (before ++ (name, e) :: after)) := by
  intro body hb
  cases body with
  | object members =>
    rw [Specification.accepts_eq] at hb ⊢
    simp only [Specification.fields, List.all_append, List.all_cons, Bool.and_eq_true] at hb ⊢
    obtain ⟨first, this, others⟩ := hb
    exact ⟨first, h _ _ this, others⟩
  | _ => cases hb

/-! ## The place itself -/

theorem Declaration.carries_push (d : Declaration) (t : Token) (m : Modifier) :
    (d.push t).carries m = (d.carries m || t.modifier? == some m) := by
  simp [Declaration.carries, Declaration.push, Declaration.tokens]

theorem Declaration.mem_tokens_push {d : Declaration} {t u : Token} :
    u ∈ (d.push t).tokens ↔ u ∈ d.tokens ∨ u = t := by
  simp [Declaration.push, Declaration.tokens]

/-- One more token that is no modifier has to hold as well. -/
theorem Declaration.push_below {t : Token} (ht : t.modifier? = none) (d : Declaration) : (d.push t).Below d := by
  intro context v hv
  have carries : ∀ m, (d.push t).carries m = d.carries m := by
    intro m
    simp [Declaration.carries_push, ht]
  rw [Declaration.allows_iff] at hv ⊢
  simp only [carries] at hv
  refine hv.imp_right fun hv => hv.imp_right ?_
  rintro ⟨w, rfl, all⟩
  exact ⟨w, rfl, fun u hu => all u (Declaration.mem_tokens_push.mpr (.inl hu))⟩

/-- One more modifier asks for nothing, and may exempt an absence or a null. -/
theorem Declaration.below_push {t : Token} (ht : t.modifier? ≠ none) (d : Declaration) : d.Below (d.push t) := by
  intro context v hv
  have carries : ∀ m, d.carries m = true → (d.push t).carries m = true := by
    intro m hm
    simp [Declaration.carries_push, hm]
  rw [Declaration.allows_iff] at hv ⊢
  rcases hv with ⟨rfl, hm⟩ | ⟨rfl, hm⟩ | ⟨w, rfl, all⟩
  · exact .inl ⟨rfl, carries _ hm⟩
  · exact .inr (.inl ⟨rfl, carries _ hm⟩)
  · refine .inr (.inr ⟨w, rfl, fun u hu hn => ?_⟩)
    rcases Declaration.mem_tokens_push.mp hu with hu | rfl
    · exact all u hu hn
    · exact absurd hn ht

/-- One more field has to be allowed as well. -/
theorem Specification.insert_below {s : Specification} {name : String} (h : s.contains name = false)
    (d : Declaration) : (s.insert name d).Below s := by
  intro body hb
  cases body with
  | object members =>
    rw [Specification.accepts_eq, Specification.fields_insert h, List.all_append, Bool.and_eq_true] at hb
    rw [Specification.accepts_eq]
    exact hb.1
  | _ => cases hb

/-! ## Changes at any depth -/

mutual

/-- A change that narrows is one to what is below, and any other to what is above. -/
theorem Declaration.Edited.ordered {e : Edit} {d d' : Declaration} :
    Declaration.Edited e d d' → (e.narrows = true → d'.Below d) ∧ (e.narrows = false → d.Below d')
  | .push d t => by
    simp only [Edit.narrows, Option.isNone_iff_eq_none, Option.isNone_eq_false_iff]
    exact ⟨fun ht => d.push_below ht, fun ht => d.below_push (Option.isSome_iff_ne_none.mp ht)⟩
  | .rule h tokens tokens' name params params' => by
    obtain ⟨narrow, wide⟩ := h.ordered
    exact ⟨fun hn => Declaration.below_step (Parameter.below_rule (narrow hn)) tokens tokens' name params params',
      fun hn => Declaration.below_step (Parameter.below_rule (wide hn)) tokens tokens' name params params'⟩
  | .spec h tokens tokens' name params params' => by
    obtain ⟨narrow, wide⟩ := h.ordered
    exact ⟨fun hn => Declaration.below_step (Parameter.below_spec (narrow hn)) tokens tokens' name params params',
      fun hn => Declaration.below_step (Parameter.below_spec (wide hn)) tokens tokens' name params params'⟩

theorem Specification.Edited.ordered {e : Edit} {s s' : Specification} :
    Specification.Edited e s s' → (e.narrows = true → s'.Below s) ∧ (e.narrows = false → s.Below s')
  | .declare s name d h => ⟨fun _ => Specification.insert_below h d, fun hn => by cases hn⟩
  | .field h fields fields' name => by
    obtain ⟨narrow, wide⟩ := h.ordered
    exact ⟨fun hn => Specification.below_fields (narrow hn) fields fields' name,
      fun hn => Specification.below_fields (wide hn) fields fields' name⟩

end

/-! ## Validators -/

/-- Validators of specifications with the same names, of which one is below the other. -/
theorem Specification.result_of_below {s s' : Specification} {options : Options} {V V' : Validator}
    (h : s.compile options = .ok V) (h' : s'.compile options = .ok V') (hs : s.Below s')
    (names : options.strict = true → s'.names = s.names) {body : Json} (hr : (V.validate body).result = true) :
    (V'.validate body).result = true := by
  cases body with
  | object members =>
    rw [Specification.result_of_compile h, Bool.and_eq_true] at hr
    rw [Specification.result_of_compile h', Bool.and_eq_true]
    refine ⟨?_, hs _ hr.2⟩
    cases hst : options.strict with
    | false => rfl
    | true =>
      have fields : V'.fields = V.fields := by
        rw [Specification.fields_of_compile h, Specification.fields_of_compile h', names hst]
      rw [Validator.keysMatch_congr fields]
      rw [hst] at hr
      exact hr.1
  | _ => cases hr

/-- **More tokens accept less, more modifiers accept more.** Of a specification that is changed at one place, by a field
or by a token that is no modifier, the validator accepts nothing that it did not accept before; by a modifier,
everything that it accepted before. A strict validator asks for the names at the top, so for one no field may be
declared there. -/
theorem Specification.compile_edited {s s' : Specification} {e : Edit} {options : Options} {V V' : Validator}
    (he : Specification.Edited e s s') (h : s.compile options = .ok V) (h' : s'.compile options = .ok V')
    (hs : ∀ name d, e = .declare name d → options.strict = true → s'.names = s.names) (body : Json) :
    (e.narrows = true → (V'.validate body).result = true → (V.validate body).result = true) ∧
    (e.narrows = false → (V.validate body).result = true → (V'.validate body).result = true) := by
  have names : options.strict = true → s'.names = s.names := by
    intro strict
    rcases he.names_eq with same | ⟨name, d, rfl, _⟩
    · exact same
    · exact hs name d rfl strict
  obtain ⟨narrow, wide⟩ := he.ordered
  constructor
  · intro hn
    exact Specification.result_of_below h' h (narrow hn) fun strict => (names strict).symm
  · intro hn
    exact Specification.result_of_below h h' (wide hn) names

/-- Someone who has a badge or not. -/
def player : Specification := .ofFields [("badge", .ofTokens [.name "boolean"])]

/-- A team of such players. -/
def teamOf (player : Specification) : Specification := .ofFields [("players", .ofTokens [.everySpec player])]

def onePlayer : Json := .object [("players", .array [.object [("active", .bool true), ("badge", .bool false)]])]

/-- Players who have to be active or not as well: a team that is accepted then was accepted before. -/
theorem teamOf_player_narrows :
    Specification.Edited (.declare "active" (.ofTokens [.name "boolean"])) (teamOf player)
      (teamOf (player.insert "active" (.ofTokens [.name "boolean"]))) ∧
    ∃ V V', (teamOf player).compile { strict := true } = .ok V ∧
      (teamOf (player.insert "active" (.ofTokens [.name "boolean"]))).compile { strict := true } = .ok V' ∧
      (V'.validate onePlayer).result = true ∧ (V.validate onePlayer).result = true := by
  have edited : Specification.Edited (.declare "active" (.ofTokens [.name "boolean"])) (teamOf player)
      (teamOf (player.insert "active" (.ofTokens [.name "boolean"]))) :=
    .field (.spec (.declare player "active" _ rfl) [] [] "every" [] []) [] [] "players"
  have before : (teamOf player).compile { strict := true } = .ok _ := rfl
  have after : (teamOf (player.insert "active" (.ofTokens [.name "boolean"]))).compile { strict := true } = .ok _ := rfl
  refine ⟨edited, _, _, before, after, rfl, ?_⟩
  exact (Specification.compile_edited edited before after (fun _ _ _ _ => rfl) onePlayer).1 rfl rfl

end BodySpec
