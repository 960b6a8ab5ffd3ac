import BodySpec.Predicate

/-!
# Specifications

A specification declares fields by name, in order. A declaration is a list of tokens: names of built-in validators,
predicates of the caller, steps with parameters, and modifiers. A parameter may itself hold a declaration or a
specification. Declaring a name again replaces its declaration and keeps its place.
-/

namespace BodySpec

/-- What a declaration says of the field itself. -/
inductive Modifier where
  /-- The field may be absent. -/
  | optional
  /-- The field may be null. -/
  | optionalOrNull
  deriving DecidableEq

namespace Modifier

def name : Modifier → String
  | optional => "optional"
  | optionalOrNull => "optionalOrNull"

/-- The modifier that a name spells. -/
def ofName? (s : String) : Option Modifier :=
  if s = "optional" then some optional
  else if s = "optionalOrNull" then some optionalOrNull
  else none

theorem ofName?_name (m : Modifier) : ofName? m.name = some m := by
  cases m <;> rfl

theorem ofName?_eq_some_iff {s : String} {m : Modifier} : ofName? s = some m ↔ s = m.name := by
  constructor
  · unfold ofName?
    split
    · intro h; cases h; assumption
    · split
      · intro h; cases h; assumption
      · intro h; cases h
  · rintro rfl; exact ofName?_name m

end Modifier

/-- What a step with parameters calls. -/
inductive Head where
  | name (name : String)
  | predicate (p : Predicate)

mutual

/-- An element of a declaration. -/
inductive Token where
  | name (name : String)
  | predicate (p : Predicate)
  | step (head : Head) (params : List Parameter)
  | modifier (m : Modifier)

/-- A parameter of a step. -/
inductive Parameter where
  | value (v : Json)
  | rule (declaration : Declaration)
  | spec (specification : Specification)

inductive Declaration where
  | ofTokens (tokens : List Token)

inductive Specification where
  | ofFields (fields : List (String × Declaration))

end

namespace Declaration

def tokens : Declaration → List Token
  | ofTokens ts => ts

def push (d : Declaration) (t : Token) : Declaration := ofTokens (d.tokens ++ [t])

def isEmpty (d : Declaration) : Bool := d.tokens.isEmpty

end Declaration

namespace Token

/-- Every element satisfies the declaration. -/
def every (d : Declaration) : Token := step (.name "every") [.rule d]

/-- Every element is an object that satisfies the specification. -/
def everySpec (s : Specification) : Token := step (.name "every") [.spec s]

end Token

namespace Specification

def empty : Specification := ofFields []

def fields : Specification → List (String × Declaration)
  | ofFields fs => fs

def names (s : Specification) : List String := s.fields.map Prod.fst

def size (s : Specification) : Nat := s.fields.length

def get? (s : Specification) (name : String) : Option Declaration := s.fields.lookup name

def contains (s : Specification) (name : String) : Bool := (s.get? name).isSome

/-- Sets the declaration of a name in a list of fields, in its place or at the end. -/
def setField (name : String) (d : Declaration) : List (String × Declaration) → List (String × Declaration)
  | [] => [(name, d)]
  | (n, e) :: rest => if n = name then (n, d) :: rest else (n, e) :: setField name d rest

/-- Declares a field. -/
def insert (s : Specification) (name : String) (d : Declaration) : Specification := ofFields (setField name d s.fields)

theorem lookup_setField_self (name : String) (d : Declaration) (fs : List (String × Declaration)) :
    (setField name d fs).lookup name = some d := by
  induction fs with
  | nil => simp [setField]
  | cons f rest ih =>
    obtain ⟨n, e⟩ := f
    by_cases h : n = name
    · simp [setField, h]
    · have hne : (name == n) = false := by simpa using Ne.symm h
      simpa [setField, h, List.lookup_cons, hne] using ih

theorem lookup_setField_of_ne {name other : String} (h : other ≠ name) (d : Declaration)
    (fs : List (String × Declaration)) : (setField name d fs).lookup other = fs.lookup other := by
  have hne : (other == name) = false := by simpa using h
  induction fs with
  | nil => simp [setField, List.lookup_cons, hne]
  | cons f rest ih =>
    obtain ⟨n, e⟩ := f
    by_cases hn : n = name
    · subst hn; simp [setField, List.lookup_cons, hne]
    · simp [setField, hn, List.lookup_cons, ih]

theorem get?_insert_self (s : Specification) (name : String) (d : Declaration) :
    (s.insert name d).get? name = some d :=
  lookup_setField_self name d s.fields

theorem get?_insert_of_ne {name other : String} (h : other ≠ name) (s : Specification) (d : Declaration) :
    (s.insert name d).get? other = s.get? other :=
  lookup_setField_of_ne h d s.fields

end Specification

end BodySpec
