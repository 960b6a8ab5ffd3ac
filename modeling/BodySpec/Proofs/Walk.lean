import BodySpec.Proofs.Resolution

/-!
# The walk through a specification

Compilation reports the first fault of a walk: fields in order, tokens in order, parameters in order, down into nested
rules and specifications. The walk stops at each name of a step, at each plain value that has to stand for a rule, where
the content of a parameter begins and where a declaration ends (`Sight`). Whether a stop is at fault depends on what is
seen there alone (`Stop.fault?`), and the walk goes on whether it is or not.

A specification compiles iff no stop is at fault, and otherwise its fault is that of the first stop which is
(`Specification.compile_firstFault`). The field of a fault is the path to it through nested specifications.
-/

namespace BodySpec

/-! ## Stops -/

/-- What the walk sees at a stop. -/
inductive Sight where
  /-- The name of a step, and whether the step has no parameters. -/
  | name (name : String) (bare : Bool)
  /-- A plain value that has to stand for a rule. -/
  | data (v : Json)
  /-- The content of a parameter, at its depth. -/
  | content (depth : Nat)
  /-- The end of a declaration, and whether it has a token that is no modifier. -/
  | ending (hasStep : Bool)

/-- A stop in a field, with the fields around its specification, outermost first. -/
structure Stop where
  outer : List String
  field : String
  sight : Sight

namespace Stop

/-- The field with those around it. -/
def path (x : Stop) : String := ".".intercalate (x.outer ++ [x.field])

/-- The stop seen from the field that encloses its specification. -/
def within (parent : String) (x : Stop) : Stop := { x with outer := parent :: x.outer }

/-- The fault at a stop: a name that is neither a modifier without parameters nor that of a validator, a value that
stands for no rule, a depth beyond the limit, or a declaration without steps. -/
def fault? (limit : Nat) (x : Stop) : Option Fault :=
  match x.sight with
  | .name n bare =>
    if (Modifier.ofName? n).isSome && bare || (Builtin.ofName? n).isSome then none
    else some (.unknownValidator x.path n)
  | .data v => if v.isRuleData then none else some (.unknownValidator x.path v.text)
  | .content depth => if depth ≤ limit then none else some (.nestingTooDeep x.path limit)
  | .ending hasStep => if hasStep then none else some (.emptyRule x.path)

end Stop

/-- A stop at a site. -/
def Site.look (site : Site) (sight : Sight) : Stop := { outer := [], field := site.field, sight }

/-- The site of the content of a parameter. -/
def Site.deeper (site : Site) : Site := { site with depth := site.depth + 1 }

/-! ## The walk -/

namespace Json

mutual

/-- The walk through a value that has to stand for a rule. -/
def walk (site : Site) : Json → List Stop
  | string n =>
    [site.look (.data (string n)), site.look (.content (site.depth + 1)), site.look (.name n true),
      site.look (.ending (Modifier.ofName? n).isNone)]
  | array (string n :: ps) =>
    site.look (.data (array (string n :: ps))) :: site.look (.content (site.depth + 1)) ::
      site.look (.name n ps.isEmpty) :: (if n = "every" then walkAll site.deeper ps else []) ++
      [site.look (.ending (Modifier.ofName? n).isNone)]
  | v => [site.look (.data v)]

def walkAll (site : Site) : List Json → List Stop
  | [] => []
  | v :: vs => v.walk site ++ walkAll site vs

end

end Json

mutual

def Token.walk (site : Site) : Token → List Stop
  | .modifier _ => []
  | .predicate _ => []
  | .name n => [site.look (.name n true)]
  | .step (.name n) ps => site.look (.name n ps.isEmpty) :: Parameter.walkAll site (n = "every") ps
  | .step (.predicate _) ps => Parameter.walkAll site false ps

def Token.walkAll (site : Site) : List Token → List Stop
  | [] => []
  | t :: ts => t.walk site ++ Token.walkAll site ts

def Parameter.walk (site : Site) (dataAsRules : Bool) : Parameter → List Stop
  | .value v => if dataAsRules then v.walk site else []
  | .rule d => site.look (.content (site.depth + 1)) :: d.walk site.deeper
  | .spec s => site.look (.content (site.depth + 1)) :: (s.walk (site.depth + 1)).map (Stop.within site.field)

def Parameter.walkAll (site : Site) (dataAsRules : Bool) : List Parameter → List Stop
  | [] => []
  | p :: ps => p.walk site dataAsRules ++ Parameter.walkAll site dataAsRules ps

def Declaration.walk (site : Site) : Declaration → List Stop
  | .ofTokens ts => Token.walkAll site ts ++ [site.look (.ending (ts.any fun t => t.modifier?.isNone))]

/-- The walk through a specification at a depth. -/
def Specification.walk (depth : Nat) : Specification → List Stop
  | .ofFields fs => Specification.walkAll depth fs

def Specification.walkAll (depth : Nat) : List (String × Declaration) → List Stop
  | [] => []
  | (field, d) :: fs => d.walk { field, depth } ++ Specification.walkAll depth fs

end

/-- The fault of the first stop that is at fault. -/
def Specification.FirstFault (s : Specification) (limit : Nat) (e : Fault) : Prop :=
  ∃ before x after, s.walk 0 = before ++ x :: after ∧
    (∀ y ∈ before, y.fault? limit = none) ∧ x.fault? limit = some e

/-! ## Lists -/

theorem Json.walkAll_eq (site : Site) (vs : List Json) : Json.walkAll site vs = vs.flatMap (Json.walk site) := by
  induction vs with
  | nil => rfl
  | cons v vs ih => rw [Json.walkAll, List.flatMap_cons, ih]

theorem Token.walkAll_eq (site : Site) (ts : List Token) : Token.walkAll site ts = ts.flatMap (Token.walk site) := by
  induction ts with
  | nil => rfl
  | cons t ts ih => rw [Token.walkAll, List.flatMap_cons, ih]

theorem Parameter.walkAll_eq (site : Site) (dataAsRules : Bool) (ps : List Parameter) :
    Parameter.walkAll site dataAsRules ps = ps.flatMap (Parameter.walk site dataAsRules) := by
  induction ps with
  | nil => rfl
  | cons p ps ih => rw [Parameter.walkAll, List.flatMap_cons, ih]

theorem Specification.walkAll_eq (depth : Nat) (fs : List (String × Declaration)) :
    Specification.walkAll depth fs = fs.flatMap fun f => f.2.walk { field := f.1, depth } := by
  induction fs with
  | nil => rfl
  | cons f fs ih => rw [Specification.walkAll, List.flatMap_cons, ih]

theorem Json.walk_of_not_isRuleData {site : Site} {v : Json} (h : v.isRuleData = false) :
    v.walk site = [site.look (.data v)] := by
  unfold Json.walk
  split <;> first | rfl | simp [Json.isRuleData] at h

/-! ## Faults at a stop -/

theorem Site.path_look (site : Site) (sight : Sight) : (site.look sight).path = site.field := by
  simp [Stop.path, Site.look]

theorem Stop.path_within (parent : String) (x : Stop) : (x.within parent).path = parent ++ "." ++ x.path :=
  String.intercalate_cons_of_ne_nil (by simp)

/-- Seen from outside, a stop has the fault that is seen from outside. -/
theorem Stop.fault?_within (limit : Nat) (parent : String) (x : Stop) :
    (x.within parent).fault? limit = (x.fault? limit).map (Fault.within parent) := by
  obtain ⟨outer, field, sight⟩ := x
  unfold Stop.fault?
  rw [Stop.path_within]
  cases sight <;> simp only [Stop.within] <;> split <;> rfl

theorem Builtin.ofName?_of_modifier {n : String} {m : Modifier} (h : Modifier.ofName? n = some m) :
    Builtin.ofName? n = none := by
  rw [Modifier.ofName?_eq_some_iff.mp h]
  cases m <;> decide

end BodySpec
