/-!
# Decimal digits

Reading runs of ASCII decimal digits. `digits` splits off the digits at the front of a text, `decimalValue` is the
number that a run of digits writes.
-/

namespace BodySpec.Text

/-- The value of an ASCII decimal digit. -/
def digit? (c : Char) : Option Nat := if c.isDigit then some (c.toNat - '0'.toNat) else none

/-- The digits at the front of a text, and the rest. -/
def digits : List Char → List Nat × List Char
  | [] => ([], [])
  | c :: s =>
    match digit? c with
    | none => ([], c :: s)
    | some d => (d :: (digits s).1, (digits s).2)

/-- At most `count` digits at the front of a text, and the rest. -/
def digitsUpTo : Nat → List Char → List Nat × List Char
  | 0, s => ([], s)
  | _ + 1, [] => ([], [])
  | n + 1, c :: s =>
    match digit? c with
    | none => ([], c :: s)
    | some d => (d :: (digitsUpTo n s).1, (digitsUpTo n s).2)

/-- The number that a run of digits writes, most significant digit first. -/
def decimalValue (ds : List Nat) : Nat := ds.foldl (fun n d => 10 * n + d) 0

/-- The number that a text writes, if it is one or more digits and nothing else. -/
def natural? (s : List Char) : Option Nat :=
  match digits s with
  | (d :: ds, []) => some (decimalValue (d :: ds))
  | _ => none

/-- A run of digits is read to its end. -/
theorem digits_append {s rest : List Char} (hs : ∀ c ∈ s, c.isDigit = true)
    (hrest : ∀ c ∈ rest.head?, c.isDigit = false) :
    digits (s ++ rest) = (s.map fun c => c.toNat - '0'.toNat, rest) := by
  induction s with
  | nil =>
    cases rest with
    | nil => rfl
    | cons c rest =>
      have other : c.isDigit = false := hrest c rfl
      simp [digits, digit?, other]
  | cons c s ih =>
    obtain ⟨hc, hs⟩ := List.forall_mem_cons.mp hs
    simp [digits, digit?, hc, ih hs]

theorem digits_of_isDigit {s : List Char} (hs : ∀ c ∈ s, c.isDigit = true) :
    digits s = (s.map fun c => c.toNat - '0'.toNat, []) := by
  have read : digits (s ++ []) = (s.map fun c => c.toNat - '0'.toNat, []) := digits_append hs (by simp)
  rwa [List.append_nil] at read

/-- What stands before the rest is a run of digits. -/
theorem exists_digits (s : List Char) : ∃ run, s = run ++ (digits s).2 ∧ ∀ c ∈ run, c.isDigit = true := by
  induction s with
  | nil => exact ⟨[], rfl, List.forall_mem_nil _⟩
  | cons c s ih =>
    obtain ⟨run, hs, hrun⟩ := ih
    by_cases hc : c.isDigit = true
    · refine ⟨c :: run, ?_, List.forall_mem_cons.mpr ⟨hc, hrun⟩⟩
      simp only [digits, digit?, hc, if_true, List.cons_append, ← hs]
    · exact ⟨[], by simp [digits, digit?, hc], List.forall_mem_nil _⟩

theorem decimalValue_map (s : List Char) :
    decimalValue (s.map fun c => c.toNat - '0'.toNat) = Nat.ofDigitChars 10 s 0 := by
  rw [decimalValue, List.foldl_map, Nat.ofDigitChars_eq_foldl]

end BodySpec.Text
