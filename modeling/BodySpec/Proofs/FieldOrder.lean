import BodySpec.Proofs.Observation

/-!
# The order of fields does not matter

Two specifications are equal up to the order of fields (`Specification.Reordered`) if the fields of the one, each with a
declaration that is equal up to the order of fields to begin with, are a permutation of the fields of the other. The
order may differ at the top and, at the same time, in every specification among the parameters of steps.

What depends on the order is which fault is the first. Whether there is one does not: the walks through both have the
same stops (`Specification.walk_perm`). Nor does the meaning (`Specification.accepts_of_reordered`), since the arguments
that a step sees are the same. So both compile or none does, and the validators give the same answers
(`Specification.compile_reordered`). Both facts are an induction over the first specification.
-/

namespace BodySpec

/-! ## Equality up to the order of fields -/

mutual

/-- The same token, but for the order of fields in the specifications among its parameters. -/
def Token.Reordered : Token → Token → Prop
  | .step head ps, .step head' qs => head = head' ∧ Parameter.AllReordered ps qs
  | t, u => t = u
termination_by structural t => t

def Token.AllReordered : List Token → List Token → Prop
  | [], [] => True
  | t :: ts, u :: us => t.Reordered u ∧ Token.AllReordered ts us
  | _, _ => False
termination_by structural ts => ts

def Parameter.Reordered : Parameter → Parameter → Prop
  | .value v, .value w => v = w
  | .rule d, .rule e => d.Reordered e
  | .spec s, .spec s' => s.Reordered s'
  | _, _ => False
termination_by structural p => p

def Parameter.AllReordered : List Parameter → List Parameter → Prop
  | [], [] => True
  | p :: ps, q :: qs => p.Reordered q ∧ Parameter.AllReordered ps qs
  | _, _ => False
termination_by structural ps => ps

def Declaration.Reordered : Declaration → Declaration → Prop
  | .ofTokens ts, .ofTokens us => Token.AllReordered ts us
termination_by structural d => d

/-- The same fields in any order, each with the same declaration but for the order of fields in it. -/
def Specification.Reordered : Specification → Specification → Prop
  | .ofFields fs, s' => ∃ gs, Specification.AllReordered fs gs ∧ gs.Perm s'.fields
termination_by structural s => s

def Specification.AllReordered : List (String × Declaration) → List (String × Declaration) → Prop
  | [], [] => True
  | (field, d) :: fs, (field', e) :: gs => (field = field' ∧ d.Reordered e) ∧ Specification.AllReordered fs gs
  | _, _ => False
termination_by structural fs => fs

end

theorem Token.allReordered_iff {ts us : List Token} :
    Token.AllReordered ts us ↔ List.Forall₂ Token.Reordered ts us := by
  induction ts generalizing us with
  | nil => cases us <;> simp [Token.AllReordered]
  | cons t ts ih => cases us <;> simp [Token.AllReordered, ih]

theorem Parameter.allReordered_iff {ps qs : List Parameter} :
    Parameter.AllReordered ps qs ↔ List.Forall₂ Parameter.Reordered ps qs := by
  induction ps generalizing qs with
  | nil => cases qs <;> simp [Parameter.AllReordered]
  | cons p ps ih => cases qs <;> simp [Parameter.AllReordered, ih]

theorem Specification.allReordered_iff {fs gs : List (String × Declaration)} :
    Specification.AllReordered fs gs ↔ List.Forall₂ (fun f g => f.1 = g.1 ∧ f.2.Reordered g.2) fs gs := by
  induction fs generalizing gs with
  | nil => cases gs <;> simp [Specification.AllReordered]
  | cons f fs ih =>
    cases gs with
    | nil => simp [Specification.AllReordered]
    | cons g gs => rw [Specification.AllReordered, ih, List.forall₂_cons]

/-- The parameters of a step correspond to each other, and the rest of a token stays as it is. -/
theorem Token.reordered_step_iff {head : Head} {ps : List Parameter} {u : Token} :
    (Token.step head ps).Reordered u ↔ ∃ qs, u = .step head qs ∧ List.Forall₂ Parameter.Reordered ps qs := by
  cases u with
  | step head' qs =>
    simp only [Token.Reordered, Parameter.allReordered_iff]
    constructor
    · rintro ⟨rfl, h⟩
      exact ⟨qs, rfl, h⟩
    · rintro ⟨_, ⟨⟩, h⟩
      exact ⟨rfl, h⟩
  | _ => simp [Token.Reordered]

/-- What is no step with parameters stays as it is. -/
theorem Token.eq_of_reordered {t u : Token} (ht : ∀ head ps, t ≠ .step head ps) (h : t.Reordered u) : u = t := by
  cases t <;> cases u <;> simp_all [Token.Reordered]

theorem Parameter.eq_of_reordered {v : Json} {q : Parameter} (h : (Parameter.value v).Reordered q) : q = .value v := by
  cases q <;> simp_all [Parameter.Reordered]

/-- The fields of one specification, with reordered declarations, are a permutation of those of the other. -/
theorem Specification.reordered_iff {s s' : Specification} :
    s.Reordered s' ↔
      ∃ gs, List.Forall₂ (fun f g => f.1 = g.1 ∧ f.2.Reordered g.2) s.fields gs ∧ gs.Perm s'.fields := by
  obtain ⟨fs⟩ := s
  simp only [Specification.Reordered, Specification.allReordered_iff, Specification.fields]

theorem Specification.names_perm {s s' : Specification} (h : s.Reordered s') : s.names.Perm s'.names := by
  obtain ⟨gs, hgs, hp⟩ := Specification.reordered_iff.mp h
  have same : s.names = gs.map Prod.fst := by
    unfold Specification.names
    clear hp h
    generalize s.fields = fs at hgs
    induction hgs with
    | nil => rfl
    | cons h _ ih => rw [List.map_cons, List.map_cons, h.1, ih]
  rw [same]
  exact hp.map Prod.fst

/-- Reordered tokens are the same modifier, or none. -/
theorem Token.modifier?_of_reordered {t u : Token} (h : t.Reordered u) : u.modifier? = t.modifier? := by
  cases t with
  | step head ps =>
    obtain ⟨qs, rfl, hps⟩ := Token.reordered_step_iff.mp h
    cases hps <;> cases head <;> rfl
  | _ => rw [Token.eq_of_reordered (by simp) h]

theorem Token.any_modifier?_of_reordered {ts us : List Token} (h : List.Forall₂ Token.Reordered ts us)
    (test : Option Modifier → Bool) : (us.any fun t => test t.modifier?) = ts.any fun t => test t.modifier? := by
  induction h with
  | nil => rfl
  | cons hr _ ih => rw [List.any_cons, List.any_cons, Token.modifier?_of_reordered hr, ih]

/-! ## The walk -/

/-- Lists whose elements yield permutations yield a permutation. -/
theorem flatMap_perm {α β : Type} {R : α → α → Prop} {f g : α → List β} {xs ys : List α}
    (h : List.Forall₂ R xs ys)
    (hf : ∀ x ∈ xs, ∀ y, R x y → (f x).Perm (g y)) : (xs.flatMap f).Perm (ys.flatMap g) := by
  induction h with
  | nil => exact .nil
  | @cons x y xs ys hr _ ih =>
    rw [List.flatMap_cons, List.flatMap_cons]
    have first := hf x List.mem_cons_self y hr
    have others := ih fun z hz => hf z (List.mem_cons_of_mem x hz)
    exact first.append others

/-- The walk through a reordered token has the same stops. -/
def Token.WalkPermuted (t : Token) : Prop :=
  ∀ u, t.Reordered u → ∀ site : Site, (t.walk site).Perm (u.walk site)

def Parameter.WalkPermuted (p : Parameter) : Prop :=
  ∀ q, p.Reordered q → ∀ (site : Site) (w : Bool), (p.walk site w).Perm (q.walk site w)

def Declaration.WalkPermuted (d : Declaration) : Prop :=
  ∀ e, d.Reordered e → ∀ site : Site, (d.walk site).Perm (e.walk site)

def Specification.WalkPermuted (s : Specification) : Prop :=
  ∀ s', s.Reordered s' → ∀ depth : Nat, (s.walk depth).Perm (s'.walk depth)

theorem Parameter.walkAll_perm {ps qs : List Parameter} (hps : ∀ p ∈ ps, p.WalkPermuted)
    (h : List.Forall₂ Parameter.Reordered ps qs) (site : Site) (w : Bool) :
    (Parameter.walkAll site w ps).Perm (Parameter.walkAll site w qs) := by
  rw [Parameter.walkAll_eq, Parameter.walkAll_eq]
  exact flatMap_perm h fun p hp q hq => hps p hp q hq site w

theorem Token.walkPermuted_step (head : Head) {ps : List Parameter} (hps : ∀ p ∈ ps, p.WalkPermuted) :
    (Token.step head ps).WalkPermuted := by
  intro u h site
  obtain ⟨qs, rfl, hqs⟩ := Token.reordered_step_iff.mp h
  cases head with
  | name n =>
    have bare : ps.isEmpty = qs.isEmpty := by cases hqs <;> rfl
    rw [Token.walk, Token.walk, bare]
    exact (Parameter.walkAll_perm hps hqs site _).cons _
  | predicate q =>
    rw [Token.walk, Token.walk]
    exact Parameter.walkAll_perm hps hqs site false

theorem Declaration.walkPermuted {ts : List Token} (hts : ∀ t ∈ ts, t.WalkPermuted) :
    (Declaration.ofTokens ts).WalkPermuted := by
  intro e h site
  obtain ⟨us⟩ := e
  have hus : List.Forall₂ Token.Reordered ts us := Token.allReordered_iff.mp h
  have ending := Token.any_modifier?_of_reordered hus Option.isNone
  rw [Declaration.walk, Declaration.walk, ending, Token.walkAll_eq, Token.walkAll_eq]
  exact (flatMap_perm hus fun t ht u hu => hts t ht u hu site).append_right _

theorem Specification.walkPermuted {fs : List (String × Declaration)} (hfs : ∀ f ∈ fs, f.2.WalkPermuted) :
    (Specification.ofFields fs).WalkPermuted := by
  intro s' h depth
  obtain ⟨gs, hgs, hp⟩ := Specification.reordered_iff.mp h
  obtain ⟨fs'⟩ := s'
  rw [Specification.walk, Specification.walk, Specification.walkAll_eq, Specification.walkAll_eq]
  have fields : (fs.flatMap fun f => f.2.walk { field := f.1, depth }).Perm
      (gs.flatMap fun g => g.2.walk { field := g.1, depth }) := by
    refine flatMap_perm hgs fun f hf g hg => ?_
    rw [hg.1]
    exact hfs f hf g.2 hg.2 _
  have order := hp.flatMap_right fun g : String × Declaration => g.2.walk { field := g.1, depth }
  exact fields.trans order

theorem Specification.walkPermuted_cases :
    Specification.Cases Token.WalkPermuted Parameter.WalkPermuted Declaration.WalkPermuted
      Specification.WalkPermuted where
  name n := by
    intro u h site
    rw [Token.eq_of_reordered (by simp) h]
  predicate p := by
    intro u h site
    rw [Token.eq_of_reordered (by simp) h]
  named n _ hps := Token.walkPermuted_step (.name n) hps
  inline q _ hps := Token.walkPermuted_step (.predicate q) hps
  modifier m := by
    intro u h site
    rw [Token.eq_of_reordered (by simp) h]
  value v := by
    intro q h site w
    rw [Parameter.eq_of_reordered h]
  rule d hd := by
    intro q h site w
    cases q with
    | rule e => exact (hd e h _).cons _
    | _ => cases h
  spec s hs := by
    intro q h site w
    cases q with
    | spec s' => exact ((hs s' h _).map _).cons _
    | _ => cases h
  tokens _ hts := Declaration.walkPermuted hts
  fields _ hfs := Specification.walkPermuted hfs

/-- The walks through reordered specifications have the same stops. -/
theorem Specification.walk_perm {s s' : Specification} (h : s.Reordered s') (depth : Nat) :
    (s.walk depth).Perm (s'.walk depth) :=
  Specification.walkPermuted_cases.specification s s' h depth

/-! ## The meaning -/

/-- A reordered token says the same. -/
def Token.HoldsKept (t : Token) : Prop :=
  ∀ u, t.Reordered u → ∀ (context : Context) (v : Json), u.holds context v = t.holds context v

def Parameter.HoldsKept (p : Parameter) : Prop :=
  ∀ q, p.Reordered q → ∀ (field : String) (w : Bool), q.meaning field w = p.meaning field w

def Declaration.HoldsKept (d : Declaration) : Prop :=
  ∀ e, d.Reordered e → ∀ (context : Context) (v : Option Json), e.allows context v = d.allows context v

def Specification.HoldsKept (s : Specification) : Prop :=
  ∀ s', s.Reordered s' → ∀ body : Json, s'.accepts body = s.accepts body

theorem Parameter.meanings_of_reordered {ps qs : List Parameter} (hps : ∀ p ∈ ps, p.HoldsKept)
    (h : List.Forall₂ Parameter.Reordered ps qs) (field : String) (w : Bool) :
    Parameter.meanings field w qs = Parameter.meanings field w ps := by
  induction h with
  | nil => rfl
  | @cons p q ps qs hq _ ih =>
    have first := hps p List.mem_cons_self q hq field w
    have others := ih fun r hr => hps r (List.mem_cons_of_mem p hr)
    rw [Parameter.meanings, Parameter.meanings, first, others]

theorem Token.holdsKept_step (head : Head) {ps : List Parameter} (hps : ∀ p ∈ ps, p.HoldsKept) :
    (Token.step head ps).HoldsKept := by
  intro u h context v
  obtain ⟨qs, rfl, hqs⟩ := Token.reordered_step_iff.mp h
  have same := Parameter.meanings_of_reordered hps hqs context.field
  cases head <;> simp only [Token.holds, same]

theorem Token.allHold_of_reordered {ts us : List Token} (hts : ∀ t ∈ ts, t.HoldsKept)
    (h : List.Forall₂ Token.Reordered ts us) (context : Context) (v : Json) :
    Token.allHold context v us = Token.allHold context v ts := by
  induction h with
  | nil => rfl
  | @cons t u ts us hr _ ih =>
    have first := hts t List.mem_cons_self u hr context v
    have others := ih fun w hw => hts w (List.mem_cons_of_mem t hw)
    rw [Token.allHold, Token.allHold, Token.modifier?_of_reordered hr, first, others]

theorem Declaration.holdsKept {ts : List Token} (hts : ∀ t ∈ ts, t.HoldsKept) :
    (Declaration.ofTokens ts).HoldsKept := by
  intro e h context v
  obtain ⟨us⟩ := e
  have hus : List.Forall₂ Token.Reordered ts us := Token.allReordered_iff.mp h
  have carries : ∀ m, (Declaration.ofTokens us).carries m = (Declaration.ofTokens ts).carries m := fun m =>
    Token.any_modifier?_of_reordered hus (· == some m)
  cases v with
  | none => simp only [Declaration.allows, carries]
  | some w => simp only [Declaration.allows, carries, Token.allHold_of_reordered hts hus]

theorem Specification.holdsKept {fs : List (String × Declaration)} (hfs : ∀ f ∈ fs, f.2.HoldsKept) :
    (Specification.ofFields fs).HoldsKept := by
  intro s' h body
  obtain ⟨gs, hgs, hp⟩ := Specification.reordered_iff.mp h
  cases body with
  | object members =>
    -- the fields of the other specification, in the order of the first
    rw [Specification.accepts_eq, Specification.accepts_eq, ← hp.all_eq]
    change List.Forall₂ _ fs gs at hgs
    change _ = fs.all _
    clear hp h
    induction hgs with
    | nil => rfl
    | @cons f g fs gs hg _ ih =>
      have first := hfs f List.mem_cons_self g.2 hg.2
      have others := ih fun x hx => hfs x (List.mem_cons_of_mem f hx)
      rw [List.all_cons, List.all_cons, hg.1, first, others]
  | _ =>
    obtain ⟨fs'⟩ := s'
    rfl

theorem Specification.holdsKept_cases :
    Specification.Cases Token.HoldsKept Parameter.HoldsKept Declaration.HoldsKept Specification.HoldsKept where
  name n := by
    intro u h context v
    rw [Token.eq_of_reordered (by simp) h]
  predicate p := by
    intro u h context v
    rw [Token.eq_of_reordered (by simp) h]
  named n _ hps := Token.holdsKept_step (.name n) hps
  inline q _ hps := Token.holdsKept_step (.predicate q) hps
  modifier m := by
    intro u h context v
    rw [Token.eq_of_reordered (by simp) h]
  value v := by
    intro q h field w
    rw [Parameter.eq_of_reordered h]
  rule d hd := by
    intro q h field w
    cases q with
    | rule e => exact congrArg Argument.rule (funext fun v => hd e h _ (some v))
    | _ => cases h
  spec s hs := by
    intro q h field w
    cases q with
    | spec s' => exact congrArg Argument.rule (funext fun v => hs s' h v)
    | _ => cases h
  tokens _ hts := Declaration.holdsKept hts
  fields _ hfs := Specification.holdsKept hfs

/-- Reordered specifications accept the same bodies. -/
theorem Specification.accepts_of_reordered {s s' : Specification} (h : s.Reordered s') (body : Json) :
    s'.accepts body = s.accepts body :=
  Specification.holdsKept_cases.specification s s' h body

/-! ## Validators -/

theorem Validator.keysMatch_of_perm {V W : Validator} (h : V.fields.Perm W.fields) (members : Json.Members) :
    V.keysMatch members = W.keysMatch members := by
  have declares : V.declares = W.declares := funext fun field => h.contains_eq
  have distinct : V.fields.eraseDups.Perm W.fields.eraseDups :=
    (List.perm_ext_iff_of_nodup (nodup_eraseDups _) (nodup_eraseDups _)).mpr fun field => by
      rw [List.mem_eraseDups, List.mem_eraseDups, h.mem_iff]
  rw [keysMatch, keysMatch, declares, distinct.length_eq]

/-- A specification compiles iff a reordered one does. -/
theorem Specification.compiles_of_reordered {s s' : Specification} (h : s.Reordered s') (options : Options) :
    (∃ V, s.compile options = .ok V) ↔ ∃ W, s'.compile options = .ok W := by
  have stops := Specification.walk_perm h 0
  simp only [← Fault.of?_eq_none, Specification.of?_compile, Specification.of?_rules, List.findSome?_eq_none_iff,
    stops.mem_iff]

theorem Specification.result_of_reordered {s s' : Specification} (h : s.Reordered s') {options : Options}
    {V W : Validator} (hV : s.compile options = .ok V) (hW : s'.compile options = .ok W) (body : Json) :
    (V.validate body).result = (W.validate body).result := by
  cases body with
  | object members =>
    have fields : V.fields.Perm W.fields := by
      rw [Specification.fields_of_compile hV, Specification.fields_of_compile hW]
      exact Specification.names_perm h
    rw [Specification.result_of_compile hV, Specification.result_of_compile hW, Validator.keysMatch_of_perm fields,
      Specification.accepts_of_reordered h]
  | _ => rfl

/-- **The order of fields does not matter**: specifications that are equal up to the order of fields, at the top and in
every nested specification, both compile or both do not, and their validators give the same answers. -/
theorem Specification.compile_reordered {s s' : Specification} (h : s.Reordered s') (options : Options) :
    (∃ e e', s.compile options = .error e ∧ s'.compile options = .error e') ∨
    ∃ V W, s.compile options = .ok V ∧ s'.compile options = .ok W ∧
      ∀ body, (V.validate body).result = (W.validate body).result := by
  have compiles := Specification.compiles_of_reordered h options
  cases hV : s.compile options with
  | ok V =>
    obtain ⟨W, hW⟩ := compiles.mp ⟨V, hV⟩
    exact .inr ⟨V, W, rfl, hW, Specification.result_of_reordered h hV hW⟩
  | error e =>
    cases hW : s'.compile options with
    | ok W =>
      obtain ⟨V, hV'⟩ := compiles.mpr ⟨W, hW⟩
      rw [hV] at hV'
      cases hV'
    | error e' => exact .inl ⟨e, e', rfl, rfl⟩

/-- A line of an order. -/
def orderLine : Specification :=
  .ofFields [("article", .ofTokens [.name "objectId"]), ("count", .ofTokens [.name "number"])]

def orderLineTurned : Specification :=
  .ofFields [("count", .ofTokens [.name "number"]), ("article", .ofTokens [.name "objectId"])]

/-- An order: its lines, and whether it is paid. -/
def order : Specification :=
  .ofFields [
    ("lines", .ofTokens [.everySpec orderLine]),
    ("paid", .ofTokens [.name "boolean", .name "optional"])]

/-- The same with other orders of fields, in the lines too. -/
def orderTurned : Specification :=
  .ofFields [
    ("paid", .ofTokens [.name "boolean", .name "optional"]),
    ("lines", .ofTokens [.everySpec orderLineTurned])]

/-- An order with a line that lacks its count. -/
def countless : Json :=
  .object [("lines", .array [.object [("article", .string "507f1f77bcf86cd799439011")]]), ("paid", .bool true)]

/-- Both compile strictly and refuse the line. -/
theorem orderTurned_refuses_countless :
    order.Reordered orderTurned ∧ ∃ V W, order.compile { strict := true } = .ok V ∧
      orderTurned.compile { strict := true } = .ok W ∧
      (V.validate countless).result = (W.validate countless).result ∧
      (W.validate countless).result = false := by
  have line : orderLine.Reordered orderLineTurned :=
    ⟨orderLine.fields, ⟨⟨rfl, rfl, trivial⟩, ⟨rfl, rfl, trivial⟩, trivial⟩, .swap _ _ []⟩
  have turned : order.Reordered orderTurned :=
    ⟨orderTurned.fields.reverse,
      ⟨⟨rfl, ⟨rfl, line, trivial⟩, trivial⟩, ⟨rfl, rfl, rfl, trivial⟩, trivial⟩,
      .swap _ _ []⟩
  rcases Specification.compile_reordered turned { strict := true } with ⟨e, _, he, _⟩ | ⟨V, W, hV, hW, same⟩
  · cases he
  · cases hW
    exact ⟨turned, V, _, hV, rfl, same countless, rfl⟩

end BodySpec
