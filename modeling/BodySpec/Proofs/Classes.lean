import BodySpec.Format.Letters
import BodySpec.Pattern.Language

/-!
# Character classes of a pattern

What holds of every class of characters in a pattern (`Pattern.AllClasses`) is carried to the texts it accepts. Main
statements: the characters of an accepted text belong to the classes (`Pattern.forall_mem_of_matches`), and a text may
be replaced, character by character, by one that the classes do not tell from it (`Pattern.accepts_map`).

The second goes by derivatives: a derivative depends on the character only through the classes
(`Pattern.derive_of_allClasses`), and has no class that its pattern has not (`Pattern.AllClasses.derive`).
-/

namespace BodySpec.Pattern

variable {P : (Char → Bool) → Prop}

/-- Every class of characters in the pattern has the property. -/
def AllClasses (P : (Char → Bool) → Prop) : Pattern → Prop
  | never => True
  | empty => True
  | char belongs => P belongs
  | seq p q => p.AllClasses P ∧ q.AllClasses P
  | alt p q => p.AllClasses P ∧ q.AllClasses P
  | star p => p.AllClasses P

/-! ## Combinations -/

section Combinations

variable {p q : Pattern}

@[simp] theorem allClasses_never : never.AllClasses P := trivial

@[simp] theorem allClasses_empty : Pattern.empty.AllClasses P := trivial

@[simp] theorem allClasses_char {belongs : Char → Bool} : (char belongs).AllClasses P ↔ P belongs := Iff.rfl

@[simp] theorem allClasses_seq : (seq p q).AllClasses P ↔ p.AllClasses P ∧ q.AllClasses P := Iff.rfl

@[simp] theorem allClasses_alt : (alt p q).AllClasses P ↔ p.AllClasses P ∧ q.AllClasses P := Iff.rfl

@[simp] theorem allClasses_star : (star p).AllClasses P ↔ p.AllClasses P := Iff.rfl

@[simp] theorem allClasses_text {w : List Char} : (text w).AllClasses P ↔ ∀ c ∈ w, P (· == c) := by
  induction w with
  | nil => simp [text]
  | cons c w ih =>
    have hcons : text (c :: w) = seq (char (· == c)) (text w) := rfl
    rw [hcons, allClasses_seq, ih, List.forall_mem_cons]
    exact Iff.rfl

@[simp] theorem allClasses_anyOf {ps : List Pattern} : (anyOf ps).AllClasses P ↔ ∀ p ∈ ps, p.AllClasses P := by
  induction ps with
  | nil => simp [anyOf]
  | cons p ps ih =>
    have hcons : anyOf (p :: ps) = alt p (anyOf ps) := rfl
    rw [hcons, allClasses_alt, ih, List.forall_mem_cons]

@[simp] theorem allClasses_optional : (optional p).AllClasses P ↔ p.AllClasses P := by
  simp [optional]

@[simp] theorem allClasses_plus : (plus p).AllClasses P ↔ p.AllClasses P := by
  simp [plus]

theorem AllClasses.exactly (h : p.AllClasses P) (n : Nat) : (exactly n p).AllClasses P := by
  induction n with
  | zero => trivial
  | succ n ih => exact ⟨h, ih⟩

theorem AllClasses.atMost (h : p.AllClasses P) (n : Nat) : (atMost n p).AllClasses P := by
  induction n with
  | zero => trivial
  | succ n ih => exact ⟨trivial, h, ih⟩

theorem AllClasses.between (h : p.AllClasses P) (low high : Nat) : (between low high p).AllClasses P :=
  ⟨h.exactly low, h.atMost (high - low)⟩

@[simp] theorem allClasses_separatedBy {separator : Char} :
    (separatedBy separator p).AllClasses P ↔ P (· == separator) ∧ p.AllClasses P := by
  simp only [separatedBy, allClasses_seq, allClasses_star, allClasses_char]
  exact ⟨fun h => h.2, fun h => ⟨h.2, h⟩⟩

@[simp] theorem allClasses_folded {w : List Char} :
    (Format.folded w).AllClasses P ↔ ∀ c ∈ w, P (Format.foldsTo c) := by
  induction w with
  | nil => simp [Format.folded]
  | cons c w ih =>
    have hcons : Format.folded (c :: w) = seq (char (Format.foldsTo c)) (Format.folded w) := rfl
    rw [hcons, allClasses_seq, ih, List.forall_mem_cons, allClasses_char]

theorem AllClasses.andThen (hp : p.AllClasses P) (hq : q.AllClasses P) : (p.andThen q).AllClasses P := by
  cases p with
  | never => trivial
  | empty => exact hq
  | _ => exact ⟨hp, hq⟩

theorem AllClasses.orElse (hp : p.AllClasses P) (hq : q.AllClasses P) : (p.orElse q).AllClasses P := by
  cases p <;> cases q <;> first | exact hq | exact hp | exact ⟨hp, hq⟩

end Combinations

/-! ## Texts -/

/-- A text holds no character that no class of its pattern holds. -/
theorem forall_mem_of_matches {Q : Char → Prop} {p : Pattern} {s : List Char}
    (h : p.AllClasses fun belongs => ∀ c, belongs c = true → Q c) (hs : Matches p s) : ∀ c ∈ s, Q c := by
  induction hs with
  | empty => exact List.forall_mem_nil _
  | char hc => exact List.forall_mem_singleton.mpr (h _ hc)
  | seq _ _ ihp ihq => exact List.forall_mem_append.mpr ⟨ihp h.1, ihq h.2⟩
  | left _ ih => exact ih h.1
  | right _ ih => exact ih h.2
  | done => exact List.forall_mem_nil _
  | more _ _ ihp ihs => exact List.forall_mem_append.mpr ⟨ihp h, ihs h⟩

theorem AllClasses.derive {p : Pattern} (h : p.AllClasses P) (c : Char) : (p.derive c).AllClasses P := by
  induction p with
  | never => trivial
  | empty => trivial
  | char belongs =>
    rw [Pattern.derive]
    split <;> trivial
  | seq p q ihp ihq =>
    have first := (ihp h.1).andThen h.2
    rw [Pattern.derive]
    split
    · exact first.orElse (ihq h.2)
    · exact first
  | alt p q ihp ihq => exact (ihp h.1).orElse (ihq h.2)
  | star p ih => exact (ih h).andThen h

section Map

variable {f : Char → Char}

theorem derive_of_allClasses {p : Pattern}
    (h : p.AllClasses fun belongs => ∀ c, belongs (f c) = belongs c) (c : Char) :
    p.derive (f c) = p.derive c := by
  induction p with
  | never => rfl
  | empty => rfl
  | char belongs => rw [derive, derive, h c]
  | seq p q ihp ihq => rw [derive, derive, ihp h.1, ihq h.2]
  | alt p q ihp ihq => rw [derive, derive, ihp h.1, ihq h.2]
  | star p ih => rw [derive, derive, ih h]

/-- **Characters that no class tells apart are interchangeable.** -/
theorem accepts_map {p : Pattern} (h : p.AllClasses fun belongs => ∀ c, belongs (f c) = belongs c) (s : List Char) :
    p.accepts (s.map f) = p.accepts s := by
  induction s generalizing p with
  | nil => rfl
  | cons c s ih =>
    have rest : (p.derive (f c)).accepts (s.map f) = (p.derive c).accepts s := by
      rw [derive_of_allClasses h]
      exact ih (h.derive c)
    exact rest

end Map

end BodySpec.Pattern
