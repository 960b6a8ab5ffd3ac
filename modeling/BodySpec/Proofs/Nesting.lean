import BodySpec.Proofs.Observation
import BodySpec.Proofs.Settings

/-!
# The limit of depth is a threshold

The nesting of a specification is the largest number of parameters around anything in it: rules, specifications, and
plain values where they stand for rules (`Specification.nesting`). A specification that compiles under some limit
compiles under exactly the limits that are not below its nesting, always to the same validator, and under any other its
fault is that it is nested too deep (`Specification.compile_limit`).

The invariant is one of the walk (`Reaches`): from a depth it comes to depths that are up to its nesting deeper, and if
no stop is at fault then the deepest of them is within the limit. Which stops are at fault for another reason does not
depend on the limit (`Stop.fault?_of_not_content`).
-/

namespace BodySpec

/-! ## Nesting -/

namespace Json

mutual

/-- The nesting of a value that stands for a rule: only the parameters of `every` stand for rules themselves. -/
def nesting : Json → Nat
  | array (string n :: ps) => if n = "every" then deepest ps else 0
  | _ => 0

/-- The nesting of parameters that stand for rules. -/
def deepest : List Json → Nat
  | [] => 0
  | v :: vs => max (v.nesting + 1) (deepest vs)

end

end Json

mutual

def Token.nesting : Token → Nat
  | .modifier _ => 0
  | .predicate _ => 0
  | .name _ => 0
  | .step (.name n) ps => Parameter.deepest (n = "every") ps
  | .step (.predicate _) ps => Parameter.deepest false ps

def Token.deepest : List Token → Nat
  | [] => 0
  | t :: ts => max t.nesting (Token.deepest ts)

/-- A parameter that is a rule or a specification, or stands for a rule, is one level. -/
def Parameter.nesting (dataAsRules : Bool) : Parameter → Nat
  | .value v => if dataAsRules then v.nesting + 1 else 0
  | .rule d => d.nesting + 1
  | .spec s => s.nesting + 1

def Parameter.deepest (dataAsRules : Bool) : List Parameter → Nat
  | [] => 0
  | p :: ps => max (p.nesting dataAsRules) (Parameter.deepest dataAsRules ps)

def Declaration.nesting : Declaration → Nat
  | .ofTokens ts => Token.deepest ts

/-- The largest number of nested parameters on a path into a specification. -/
def Specification.nesting : Specification → Nat
  | .ofFields fs => Specification.deepest fs

def Specification.deepest : List (String × Declaration) → Nat
  | [] => 0
  | (_, d) :: fs => max d.nesting (Specification.deepest fs)

end

/-! ## How deep a walk comes -/

/-- A walk that begins at a depth comes this much deeper and no deeper, unless there is a fault on the way. -/
structure Reaches (stops : List Stop) (depth nesting : Nat) : Prop where
  /-- No content lies deeper. -/
  le : ∀ x ∈ stops, ∀ k, x.sight = .content k → k ≤ depth + nesting
  /-- Where no stop is at fault, the limit is not below the deepest content. -/
  le_limit : ∀ limit, depth ≤ limit → (∀ x ∈ stops, x.fault? limit = none) → depth + nesting ≤ limit

namespace Reaches

variable {stops others : List Stop} {depth n m : Nat}

theorem nil (depth : Nat) : Reaches [] depth 0 where
  le _ hx := by cases hx
  le_limit _ hd _ := hd

theorem append (h : Reaches stops depth n) (h' : Reaches others depth m) :
    Reaches (stops ++ others) depth (max n m) where
  le x hx k hk := by
    rcases List.mem_append.mp hx with hx | hx
    · have := h.le x hx k hk
      omega
    · have := h'.le x hx k hk
      omega
  le_limit limit hd hf := by
    have first := h.le_limit limit hd fun x hx => hf x (List.mem_append_left _ hx)
    have second := h'.le_limit limit hd fun x hx => hf x (List.mem_append_right _ hx)
    omega

/-- A stop at anything but content comes no deeper. -/
theorem look (site : Site) (sight : Sight) (depth : Nat) (hs : ∀ k, sight ≠ .content k) :
    Reaches [site.look sight] depth 0 where
  le x hx k hk := by
    rw [List.mem_singleton.mp hx] at hk
    exact absurd hk (hs k)
  le_limit _ hd _ := hd

theorem look_append (site : Site) (sight : Sight) (hs : ∀ k, sight ≠ .content k) (h : Reaches stops depth n) :
    Reaches (site.look sight :: stops) depth n := by
  have first := (look site sight depth hs).append h
  rwa [Nat.zero_max] at first

theorem append_look (site : Site) (sight : Sight) (hs : ∀ k, sight ≠ .content k) (h : Reaches stops depth n) :
    Reaches (stops ++ [site.look sight]) depth n := by
  have last := h.append (look site sight depth hs)
  rwa [Nat.max_zero] at last

/-- The content of a parameter is one level deeper. -/
theorem enter (site : Site) (h : Reaches stops (depth + 1) n) :
    Reaches (site.look (.content (depth + 1)) :: stops) depth (n + 1) where
  le x hx k hk := by
    rcases List.mem_cons.mp hx with rfl | hx
    · cases hk
      omega
    · have := h.le x hx k hk
      omega
  le_limit limit hd hf := by
    have entered : depth + 1 ≤ limit := by
      have content := hf _ List.mem_cons_self
      by_contra hn
      simp [Stop.fault?, Site.look, hn] at content
    have inner := h.le_limit limit entered fun x hx => hf x (List.mem_cons_of_mem _ hx)
    omega

/-- What is seen from outside is as deep. -/
theorem within (parent : String) (h : Reaches stops depth n) : Reaches (stops.map (Stop.within parent)) depth n where
  le x hx k hk := by
    obtain ⟨y, hy, rfl⟩ := List.mem_map.mp hx
    exact h.le y hy k hk
  le_limit limit hd hf := by
    refine h.le_limit limit hd fun x hx => ?_
    have outside := hf _ (List.mem_map_of_mem hx)
    rw [Stop.fault?_within, Option.map_eq_none_iff] at outside
    exact outside

end Reaches

/-! ## Rules written as data -/

/-- The content of a value that stands for a rule: its name, its parameters, its end. -/
theorem Reaches.data {site : Site} {v : Json} {n : String} {bare hasStep : Bool} {stops : List Stop} {m : Nat}
    (h : Reaches stops (site.depth + 1) m) :
    Reaches (site.look (.data v) :: site.look (.content (site.depth + 1)) :: site.look (.name n bare) :: stops ++
      [site.look (.ending hasStep)]) site.depth (m + 1) := by
  have named := h.look_append site (.name n bare) (fun _ h => by cases h)
  have ended := named.append_look site (.ending hasStep) (fun _ h => by cases h)
  exact (ended.enter site).look_append site _ (fun _ h => by cases h)

theorem Json.reaches_walkAll {ps : List Json}
    (hps : ∀ p ∈ ps, ∀ site : Site, Reaches (p.walk site) site.depth (p.nesting + 1)) (site : Site) :
    Reaches (Json.walkAll site ps) site.depth (Json.deepest ps) := by
  induction ps with
  | nil => exact .nil _
  | cons p ps ih =>
    have first := hps p List.mem_cons_self site
    exact first.append (ih fun q hq => hps q (List.mem_cons_of_mem p hq))

/-- The walk through a value that stands for a rule comes one level deeper than its nesting, for
it is content itself. -/
theorem Json.reaches (v : Json) : ∀ site : Site, Reaches (v.walk site) site.depth (v.nesting + 1) := by
  induction v using Json.rule_induction with
  | name n =>
    intro site
    exact Reaches.data (.nil (site.depth + 1))
  | step n ps ih =>
    intro site
    have parameters : Reaches (if n = "every" then Json.walkAll site.deeper ps else []) (site.depth + 1)
        (Json.array (.string n :: ps)).nesting := by
      rw [Json.nesting]
      split
      · exact Json.reaches_walkAll ih site.deeper
      · exact .nil _
    exact Reaches.data parameters
  | other v hv =>
    intro site
    rw [Json.walk_of_not_isRuleData hv]
    constructor
    · intro x hx k hk
      rw [List.mem_singleton.mp hx] at hk
      cases hk
    · intro limit _ hf
      -- what stands for no rule is at fault
      have data := hf _ List.mem_cons_self
      simp [Stop.fault?, Site.look, hv] at data

/-! ## Specifications -/

/-- The walk through a token comes as deep as its nesting. -/
def Token.Reach (t : Token) : Prop := ∀ site : Site, Reaches (t.walk site) site.depth t.nesting

def Parameter.Reach (p : Parameter) : Prop :=
  ∀ (site : Site) (w : Bool), Reaches (p.walk site w) site.depth (p.nesting w)

def Declaration.Reach (d : Declaration) : Prop := ∀ site : Site, Reaches (d.walk site) site.depth d.nesting

def Specification.Reach (s : Specification) : Prop := ∀ depth : Nat, Reaches (s.walk depth) depth s.nesting

theorem Parameter.reach_walkAll {ps : List Parameter} (hps : ∀ p ∈ ps, p.Reach) (site : Site) (w : Bool) :
    Reaches (Parameter.walkAll site w ps) site.depth (Parameter.deepest w ps) := by
  induction ps with
  | nil => exact .nil _
  | cons p ps ih =>
    have first := hps p List.mem_cons_self site w
    exact first.append (ih fun q hq => hps q (List.mem_cons_of_mem p hq))

theorem Token.reach_walkAll {ts : List Token} (hts : ∀ t ∈ ts, t.Reach) (site : Site) :
    Reaches (Token.walkAll site ts) site.depth (Token.deepest ts) := by
  induction ts with
  | nil => exact .nil _
  | cons t ts ih =>
    have first := hts t List.mem_cons_self site
    exact first.append (ih fun u hu => hts u (List.mem_cons_of_mem t hu))

theorem Specification.reach_walkAll {fs : List (String × Declaration)} (hfs : ∀ f ∈ fs, f.2.Reach) (depth : Nat) :
    Reaches (Specification.walkAll depth fs) depth (Specification.deepest fs) := by
  induction fs with
  | nil => exact .nil _
  | cons f fs ih =>
    have first := hfs f List.mem_cons_self { field := f.1, depth }
    exact first.append (ih fun g hg => hfs g (List.mem_cons_of_mem f hg))

theorem Specification.reach_cases :
    Specification.Cases Token.Reach Parameter.Reach Declaration.Reach Specification.Reach where
  name n site := (Reaches.nil site.depth).look_append site _ fun _ h => by cases h
  predicate _ site := .nil site.depth
  named n _ hps site := (Parameter.reach_walkAll hps site _).look_append site _ fun _ h => by cases h
  inline _ _ hps site := Parameter.reach_walkAll hps site false
  modifier _ site := .nil site.depth
  value v site w := by
    cases w with
    | true => exact v.reaches site
    | false => exact .nil site.depth
  rule d hd site _ := (hd site.deeper).enter site
  spec s hs site _ := ((hs (site.depth + 1)).within site.field).enter site
  tokens _ hts site := (Token.reach_walkAll hts site).append_look site _ fun _ h => by cases h
  fields _ hfs depth := Specification.reach_walkAll hfs depth

/-! ## Limits -/

/-- Only content can be at fault under one limit and not under another. -/
theorem Stop.fault?_of_not_content {x : Stop} (hx : ∀ k, x.sight ≠ .content k) (limit limit' : Nat) :
    x.fault? limit = x.fault? limit' := by
  unfold Stop.fault?
  cases hs : x.sight with
  | content k => exact absurd hs (hx k)
  | _ => rfl

/-- A walk without faults has none under any limit that is not below the nesting. -/
theorem Specification.faultless_iff {s : Specification} {limit : Nat} (h : ∀ x ∈ s.walk 0, x.fault? limit = none)
    (limit' : Nat) : (∀ x ∈ s.walk 0, x.fault? limit' = none) ↔ s.nesting ≤ limit' := by
  have reach : Reaches (s.walk 0) 0 s.nesting := Specification.reach_cases.specification s 0
  constructor
  · intro hf
    have := reach.le_limit limit' (Nat.zero_le _) hf
    omega
  · intro hn x hx
    by_cases hs : ∃ k, x.sight = .content k
    · obtain ⟨k, hk⟩ := hs
      have deep : k ≤ limit' := by
        have := reach.le x hx k hk
        omega
      simp [Stop.fault?, hk, deep]
    · rw [Stop.fault?_of_not_content (not_exists.mp hs) limit' limit]
      exact h x hx

/-- The first fault under a limit below the nesting is that something is nested too deep. -/
theorem Specification.tooDeep_of_faultless {s : Specification} {limit limit' : Nat} {e : Fault}
    (h : ∀ x ∈ s.walk 0, x.fault? limit = none) (he : s.FirstFault limit' e) :
    ∃ field, e = .nestingTooDeep field limit' := by
  obtain ⟨before, x, after, hw, _, hx⟩ := he
  have mem : x ∈ s.walk 0 := by
    rw [hw]
    exact List.mem_append_right _ List.mem_cons_self
  by_cases hs : ∃ k, x.sight = .content k
  · obtain ⟨k, hk⟩ := hs
    by_cases hd : k ≤ limit'
    · simp [Stop.fault?, hk, hd] at hx
    · simp only [Stop.fault?, hk, hd, if_false, Option.some.injEq] at hx
      exact ⟨x.path, hx.symm⟩
  · rw [Stop.fault?_of_not_content (not_exists.mp hs) limit' limit, h x mem] at hx
    cases hx

/-- **The limit of depth is a threshold.** A specification that compiles under some limit compiles under the limits that
are not below its nesting, and always to the same validator; under any other its fault is that it is nested deeper than
that limit. No content of any specification lies deeper than its nesting, so 64 bits suffice to count. -/
theorem Specification.compile_limit {s : Specification} {options : Options} (h : ∃ V, s.compile options = .ok V) :
    (∀ limit, (∃ V, s.compile { options with maxDepth := limit } = .ok V) ↔ s.nesting ≤ limit) ∧
    (∀ limit limit' V V', s.compile { options with maxDepth := limit } = .ok V →
      s.compile { options with maxDepth := limit' } = .ok V' → V = V') ∧
    (∀ limit, limit < s.nesting →
      ∃ field, s.compile { options with maxDepth := limit } = .error (.nestingTooDeep field limit)) ∧
    ∀ x ∈ s.walk 0, ∀ depth, x.sight = .content depth →
      depth ≤ s.nesting ∧ (s.nesting < Nat.pow 2 64 → (UInt64.ofNat depth).toNat = depth) := by
  have faultless := (s.compiles_iff options).mp h
  have threshold : ∀ limit,
      (∃ V, s.compile { options with maxDepth := limit } = .ok V) ↔ s.nesting ≤ limit := by
    intro limit
    rw [s.compiles_iff, Specification.faultless_iff faultless limit]
  refine ⟨threshold, fun limit limit' V V' hV hV' => ?_, fun limit hl => ?_, fun x hx depth hd => ?_⟩
  · have same : V = { V' with strict := V.strict } := Specification.validator_unique hV hV' rfl
    rw [same, Specification.strict_of_compile hV, ← Specification.strict_of_compile hV']
  · cases hc : s.compile { options with maxDepth := limit } with
    | ok V =>
      have := (threshold limit).mp ⟨V, hc⟩
      omega
    | error e =>
      have first : s.FirstFault limit e := by
        rw [Specification.firstFault_iff, ← Specification.of?_rules s { options with maxDepth := limit },
          ← Specification.of?_compile, hc]
        rfl
      obtain ⟨field, rfl⟩ := Specification.tooDeep_of_faultless faultless first
      exact ⟨field, rfl⟩
  · have reach : Reaches (s.walk 0) 0 s.nesting := Specification.reach_cases.specification s 0
    have deep : depth ≤ s.nesting := by
      have := reach.le x hx depth hd
      omega
    exact ⟨deep, fun hn => UInt64.toNat_ofNat_of_lt' (Nat.lt_of_le_of_lt deep hn)⟩

/-- Rows of rows of identifiers, as data, beside people whose names are given by a predicate with a nested rule. -/
def matrix : Specification :=
  .ofFields [
    ("rows", .ofTokens [.step (.name "every")
      [.value (.array [.string "every", .array [.string "every", .string "guid"]])]]),
    ("people", .ofTokens [.everySpec (.ofFields [
      ("name", .ofTokens [.step (.predicate (.ofValue fun _ => true)) [.rule (.ofTokens [.name "string"])]])])])]

/-- The matrix is nested three levels, so it compiles under the limit 3 and not under the limit 2. -/
theorem matrix_nesting : (∃ V, matrix.compile {} = .ok V) ∧ matrix.nesting = 3 ∧
    (∃ V, matrix.compile { maxDepth := 3 } = .ok V) ∧
    ∃ field, matrix.compile { maxDepth := 2 } = .error (.nestingTooDeep field 2) := by
  have compiles : ∃ V, matrix.compile {} = .ok V := ⟨_, rfl⟩
  have nesting : matrix.nesting = 3 := by decide
  obtain ⟨threshold, _, tooDeep, _⟩ := Specification.compile_limit compiles
  exact ⟨compiles, nesting, (threshold 3).mpr (Nat.le_of_eq nesting), tooDeep 2 (by rw [nesting]; decide)⟩

end BodySpec
