/-!
# Patterns

Regular expressions over characters. A text is matched as a whole, by derivatives: `derive c p` accepts `s` exactly if
`p` accepts `c :: s`. The derivative is kept small by dropping branches that can no longer match.
-/

namespace BodySpec

inductive Pattern where
  /-- No text. -/
  | never
  /-- The empty text. -/
  | empty
  /-- One character of a class. -/
  | char (belongs : Char → Bool)
  | seq (first second : Pattern)
  | alt (left right : Pattern)
  /-- Any number of repetitions. -/
  | star (p : Pattern)

namespace Pattern

/-! ## Matching -/

/-- Whether the empty text matches. -/
def nullable : Pattern → Bool
  | never => false
  | empty => true
  | char _ => false
  | seq p q => p.nullable && q.nullable
  | alt p q => p.nullable || q.nullable
  | star _ => true

/-- `seq`, without the parts that decide nothing. -/
def andThen (p q : Pattern) : Pattern :=
  match p with
  | never => never
  | empty => q
  | p => seq p q

/-- `alt`, without the parts that match nothing. -/
def orElse (p q : Pattern) : Pattern :=
  match p, q with
  | never, q => q
  | p, never => p
  | p, q => alt p q

/-- The pattern of what may follow the character `c`. -/
def derive (c : Char) : Pattern → Pattern
  | never => never
  | empty => never
  | char belongs => if belongs c then empty else never
  | seq p q =>
    if p.nullable then ((p.derive c).andThen q).orElse (q.derive c) else (p.derive c).andThen q
  | alt p q => (p.derive c).orElse (q.derive c)
  | star p => (p.derive c).andThen (star p)

/-- Whether the whole text matches. -/
def accepts (p : Pattern) (s : List Char) : Bool := (s.foldl (fun p c => p.derive c) p).nullable

/-! ## Combinations -/

/-- The text given and no other. -/
def text (s : List Char) : Pattern := s.foldr (fun c p => seq (char (· == c)) p) empty

/-- One of the patterns. -/
def anyOf (ps : List Pattern) : Pattern := ps.foldr alt never

def optional (p : Pattern) : Pattern := alt empty p

/-- One repetition or more. -/
def plus (p : Pattern) : Pattern := seq p (star p)

def exactly : Nat → Pattern → Pattern
  | 0, _ => empty
  | n + 1, p => seq p (exactly n p)

def atMost : Nat → Pattern → Pattern
  | 0, _ => empty
  | n + 1, p => alt empty (seq p (atMost n p))

/-- At least `low` and at most `high` repetitions. -/
def between (low high : Nat) (p : Pattern) : Pattern := seq (exactly low p) (atMost (high - low) p)

/-- One repetition or more, with the separator between them. -/
def separatedBy (separator : Char) (p : Pattern) : Pattern := seq p (star (seq (char (· == separator)) p))

end Pattern

end BodySpec
