import BodySpec.Pattern.Basic

/-!
# The language of a pattern

`Matches p s` says that the text `s` has the form `p`, by one rule for each way to build a pattern. Main statement:
matching by derivatives decides it (`accepts_iff`). The rest are the forms of the combinations.
-/

namespace BodySpec.Pattern

/-- The text has the form of the pattern. -/
inductive Matches : Pattern → List Char → Prop
  | empty : Matches .empty []
  | char {belongs : Char → Bool} {c : Char} : belongs c = true → Matches (.char belongs) [c]
  | seq {p q : Pattern} {s t : List Char} : Matches p s → Matches q t → Matches (.seq p q) (s ++ t)
  | left {p q : Pattern} {s : List Char} : Matches p s → Matches (.alt p q) s
  | right {p q : Pattern} {s : List Char} : Matches q s → Matches (.alt p q) s
  | done {p : Pattern} : Matches (.star p) []
  | more {p : Pattern} {s t : List Char} : Matches p s → Matches (.star p) t → Matches (.star p) (s ++ t)

/-! ## One rule at a time -/

@[simp] theorem matches_never {s : List Char} : ¬ Matches never s := by
  intro h; cases h

@[simp] theorem matches_empty {s : List Char} : Matches Pattern.empty s ↔ s = [] :=
  ⟨fun h => by cases h; rfl, fun h => h ▸ Matches.empty⟩

theorem matches_char {belongs : Char → Bool} {s : List Char} :
    Matches (char belongs) s ↔ ∃ c, belongs c = true ∧ s = [c] := by
  constructor
  · intro h; cases h with | char h => exact ⟨_, h, rfl⟩
  · rintro ⟨c, h, rfl⟩; exact Matches.char h

theorem matches_seq {p q : Pattern} {s : List Char} :
    Matches (seq p q) s ↔ ∃ t u, s = t ++ u ∧ Matches p t ∧ Matches q u := by
  constructor
  · intro h; cases h with | seq hp hq => exact ⟨_, _, rfl, hp, hq⟩
  · rintro ⟨t, u, rfl, hp, hq⟩; exact Matches.seq hp hq

theorem matches_alt {p q : Pattern} {s : List Char} : Matches (alt p q) s ↔ Matches p s ∨ Matches q s := by
  constructor
  · intro h; cases h with
    | left h => exact Or.inl h
    | right h => exact Or.inr h
  · rintro (h | h)
    · exact Matches.left h
    · exact Matches.right h

/-! ## Derivatives -/

theorem nullable_iff (p : Pattern) : p.nullable = true ↔ Matches p [] := by
  induction p with
  | never => simp [nullable]
  | empty => simp [nullable]
  | char b => simp [nullable, matches_char]
  | seq p q ihp ihq =>
    rw [nullable, Bool.and_eq_true, ihp, ihq, matches_seq]
    constructor
    · rintro ⟨hp, hq⟩; exact ⟨[], [], rfl, hp, hq⟩
    · rintro ⟨t, u, h, hp, hq⟩
      obtain ⟨rfl, rfl⟩ := List.append_eq_nil_iff.mp h.symm
      exact ⟨hp, hq⟩
  | alt p q ihp ihq => simp [nullable, matches_alt, ihp, ihq]
  | star p _ => simp [nullable, Matches.done]

theorem matches_andThen {p q : Pattern} {s : List Char} : Matches (p.andThen q) s ↔ Matches (seq p q) s := by
  cases p with
  | empty =>
    rw [andThen, matches_seq]
    constructor
    · intro h; exact ⟨[], s, rfl, Matches.empty, h⟩
    · rintro ⟨t, u, rfl, ht, hu⟩
      cases ht
      exact hu
  | never => simp [andThen, matches_seq]
  | _ => exact Iff.rfl

theorem matches_orElse {p q : Pattern} {s : List Char} : Matches (p.orElse q) s ↔ Matches (alt p q) s := by
  cases p <;> cases q <;> simp [orElse, matches_alt]

theorem matches_seq_cons {p q : Pattern} {c : Char} {s : List Char} :
    Matches (seq p q) (c :: s) ↔
      (∃ t u, s = t ++ u ∧ Matches p (c :: t) ∧ Matches q u) ∨ (Matches p [] ∧ Matches q (c :: s)) := by
  rw [matches_seq]
  constructor
  · rintro ⟨t, u, h, hp, hq⟩
    cases t with
    | nil => exact Or.inr ⟨hp, by simpa [h] using hq⟩
    | cons d t =>
      simp only [List.cons_append, List.cons.injEq] at h
      obtain ⟨rfl, rfl⟩ := h
      exact Or.inl ⟨t, u, rfl, hp, hq⟩
  · rintro (⟨t, u, rfl, hp, hq⟩ | ⟨hp, hq⟩)
    · exact ⟨c :: t, u, rfl, hp, hq⟩
    · exact ⟨[], c :: s, rfl, hp, hq⟩

theorem matches_star_cons {p : Pattern} {c : Char} {s : List Char} :
    Matches (star p) (c :: s) ↔ ∃ t u, s = t ++ u ∧ Matches p (c :: t) ∧ Matches (star p) u := by
  constructor
  · intro h
    generalize hq : star p = q at h
    generalize hw : c :: s = w at h
    induction h with
    | @more _ t u hp hs _ ih =>
      injection hq with hq
      subst hq
      cases t with
      | nil => exact ih rfl hw
      | cons d t =>
        simp only [List.cons_append, List.cons.injEq] at hw
        obtain ⟨rfl, rfl⟩ := hw
        exact ⟨t, u, rfl, hp, hs⟩
    | done => cases hw
    | _ => cases hq
  · rintro ⟨t, u, rfl, hp, hs⟩
    exact Matches.more hp hs

theorem matches_derive (c : Char) (p : Pattern) (s : List Char) : Matches (p.derive c) s ↔ Matches p (c :: s) := by
  induction p generalizing s with
  | never => simp [derive]
  | empty => simp [derive]
  | char b =>
    by_cases h : b c = true
    · simp only [derive, h, if_true, matches_empty, matches_char, List.cons.injEq]
      exact ⟨fun hs => ⟨c, h, rfl, hs⟩, fun ⟨_, _, _, hs⟩ => hs⟩
    · simp only [derive, h, matches_char, List.cons.injEq]
      simp only [Bool.false_eq_true, if_false, matches_never, false_iff]
      rintro ⟨d, hd, rfl, _⟩
      exact h hd
  | seq p q ihp ihq =>
    rw [matches_seq_cons, derive]
    split
    · rename_i h
      simp only [matches_orElse, matches_alt, matches_andThen, matches_seq, ihp, ihq, (nullable_iff p).mp h, true_and]
    · rename_i h
      simp only [matches_andThen, matches_seq, ihp, mt (nullable_iff p).mpr h, false_and, or_false]
  | alt p q ihp ihq => simp only [derive, matches_orElse, matches_alt, ihp, ihq]
  | star p ih => simp only [derive, matches_andThen, matches_seq, ih, matches_star_cons]

/-- **Matching by derivatives decides the language.** -/
theorem accepts_iff (p : Pattern) (s : List Char) : p.accepts s = true ↔ Matches p s := by
  induction s generalizing p with
  | nil => exact nullable_iff p
  | cons c s ih => rw [← matches_derive]; exact ih (p.derive c)

/-! ## Combinations -/

theorem matches_text {w s : List Char} : Matches (text w) s ↔ s = w := by
  induction w generalizing s with
  | nil => simp [text]
  | cons c w ih =>
    have hcons : text (c :: w) = seq (char (· == c)) (text w) := rfl
    rw [hcons, matches_seq]
    constructor
    · rintro ⟨t, u, rfl, ht, hu⟩
      obtain ⟨d, hd, rfl⟩ := matches_char.mp ht
      rw [ih] at hu
      simp_all
    · rintro rfl
      exact ⟨[c], w, rfl, Matches.char (by simp), ih.mpr rfl⟩

theorem matches_anyOf {ps : List Pattern} {s : List Char} : Matches (anyOf ps) s ↔ ∃ p ∈ ps, Matches p s := by
  induction ps with
  | nil => simp [anyOf]
  | cons p ps ih =>
    have hcons : anyOf (p :: ps) = alt p (anyOf ps) := rfl
    simp [hcons, matches_alt, ih]

theorem matches_optional {p : Pattern} {s : List Char} : Matches (optional p) s ↔ s = [] ∨ Matches p s := by
  simp [optional, matches_alt]

theorem matches_seq_char {belongs : Char → Bool} {q : Pattern} {s : List Char} :
    Matches (seq (char belongs) q) s ↔ ∃ c t, s = c :: t ∧ belongs c = true ∧ Matches q t := by
  rw [matches_seq]
  constructor
  · rintro ⟨t, u, rfl, ht, hu⟩
    obtain ⟨c, hc, rfl⟩ := matches_char.mp ht
    exact ⟨c, u, rfl, hc, hu⟩
  · rintro ⟨c, t, rfl, hc, ht⟩
    exact ⟨[c], t, rfl, Matches.char hc, ht⟩

theorem matches_seq_char_cons {belongs : Char → Bool} {q : Pattern} {c : Char} {s : List Char} :
    Matches (seq (char belongs) q) (c :: s) ↔ belongs c = true ∧ Matches q s := by
  rw [matches_seq_char]
  constructor
  · rintro ⟨_, _, same, hc, hs⟩
    obtain ⟨rfl, rfl⟩ := List.cons.inj same
    exact ⟨hc, hs⟩
  · rintro ⟨hc, hs⟩
    exact ⟨c, s, rfl, hc, hs⟩

/-- Two patterns with a character between them. -/
theorem matches_seq_between {p q : Pattern} {c : Char} {s : List Char} :
    Matches (seq p (seq (char (· == c)) q)) s ↔ ∃ t u, s = t ++ c :: u ∧ Matches p t ∧ Matches q u := by
  rw [matches_seq]
  simp only [matches_seq_char, beq_iff_eq]
  constructor
  · rintro ⟨t, _, rfl, ht, _, u, rfl, rfl, hu⟩
    exact ⟨t, u, rfl, ht, hu⟩
  · rintro ⟨t, u, rfl, ht, hu⟩
    exact ⟨t, _, rfl, ht, c, u, rfl, rfl, hu⟩

/-! ## Repetitions -/

theorem matches_star {p : Pattern} {s : List Char} :
    Matches (star p) s ↔ ∃ parts : List (List Char), (∀ t ∈ parts, Matches p t) ∧ s = parts.flatten := by
  constructor
  · intro h
    generalize hq : star p = q at h
    induction h with
    | done => exact ⟨[], by simp⟩
    | @more _ t u hp _ _ ih =>
      injection hq with hq
      subst hq
      obtain ⟨parts, hparts, rfl⟩ := ih rfl
      exact ⟨t :: parts, List.forall_mem_cons.mpr ⟨hp, hparts⟩, rfl⟩
    | _ => cases hq
  · rintro ⟨parts, hparts, rfl⟩
    induction parts with
    | nil => exact Matches.done
    | cons t parts ih =>
      obtain ⟨ht, hparts⟩ := List.forall_mem_cons.mp hparts
      exact Matches.more ht (ih hparts)

/-- Repetitions with a separator before each. -/
theorem matches_star_preceded {p : Pattern} {separator : Char} {s : List Char} :
    Matches (star (seq (char (· == separator)) p)) s ↔
      ∃ runs : List (List Char), (∀ r ∈ runs, Matches p r) ∧ s = (runs.map (separator :: ·)).flatten := by
  rw [matches_star]
  constructor
  · rintro ⟨parts, hparts, rfl⟩
    induction parts with
    | nil => exact ⟨[], by simp⟩
    | cons t parts ih =>
      obtain ⟨ht, others⟩ := List.forall_mem_cons.mp hparts
      obtain ⟨c, r, rfl, hc, hr⟩ := matches_seq_char.mp ht
      obtain ⟨runs, hruns, same⟩ := ih others
      refine ⟨r :: runs, List.forall_mem_cons.mpr ⟨hr, hruns⟩, ?_⟩
      simp [eq_of_beq hc, same]
  · rintro ⟨runs, hruns, rfl⟩
    refine ⟨runs.map (separator :: ·), fun t ht => ?_, rfl⟩
    obtain ⟨r, hr, rfl⟩ := List.mem_map.mp ht
    exact matches_seq_char.mpr ⟨separator, r, rfl, by simp, hruns r hr⟩

theorem intercalate_cons (separator : Char) (r : List Char) (runs : List (List Char)) :
    [separator].intercalate (r :: runs) = r ++ (runs.map (separator :: ·)).flatten := by
  induction runs generalizing r with
  | nil => simp
  | cons q runs ih => rw [List.intercalate_cons_cons, ih]; simp

/-- One run or more, joined by the separator. -/
theorem matches_separatedBy {p : Pattern} {separator : Char} {s : List Char} :
    Matches (separatedBy separator p) s ↔
      ∃ runs : List (List Char),
        runs ≠ [] ∧ (∀ r ∈ runs, Matches p r) ∧ s = [separator].intercalate runs := by
  rw [separatedBy, matches_seq]
  simp only [matches_star_preceded]
  constructor
  · rintro ⟨r, _, rfl, hr, runs, hruns, rfl⟩
    exact ⟨r :: runs, List.cons_ne_nil _ _, List.forall_mem_cons.mpr ⟨hr, hruns⟩, (intercalate_cons _ _ _).symm⟩
  · rintro ⟨_ | ⟨r, runs⟩, nonempty, hruns, rfl⟩
    · exact absurd rfl nonempty
    · obtain ⟨hr, hruns⟩ := List.forall_mem_cons.mp hruns
      exact ⟨r, _, intercalate_cons _ _ _, hr, runs, hruns, rfl⟩

section Classes

variable {belongs : Char → Bool} {s : List Char}

/-- A run of characters of a class. -/
theorem matches_star_char : Matches (star (char belongs)) s ↔ ∀ c ∈ s, belongs c = true := by
  induction s with
  | nil => simp [Matches.done]
  | cons c s ih =>
    rw [matches_star_cons, List.forall_mem_cons, ← ih]
    constructor
    · rintro ⟨t, u, rfl, hc, hu⟩
      obtain ⟨d, hd, same⟩ := matches_char.mp hc
      obtain ⟨rfl, rfl⟩ := List.cons.inj same
      exact ⟨hd, hu⟩
    · rintro ⟨hc, hs⟩
      exact ⟨[], s, rfl, Matches.char hc, hs⟩

theorem matches_plus_char : Matches (plus (char belongs)) s ↔ s ≠ [] ∧ ∀ c ∈ s, belongs c = true := by
  rw [plus, matches_seq_char]
  simp only [matches_star_char]
  constructor
  · rintro ⟨c, t, rfl, hc, ht⟩
    exact ⟨List.cons_ne_nil _ _, List.forall_mem_cons.mpr ⟨hc, ht⟩⟩
  · rintro ⟨nonempty, all⟩
    cases s with
    | nil => exact absurd rfl nonempty
    | cons c t => exact ⟨c, t, rfl, List.forall_mem_cons.mp all⟩

theorem matches_exactly_char {n : Nat} :
    Matches (exactly n (char belongs)) s ↔ s.length = n ∧ ∀ c ∈ s, belongs c = true := by
  induction n generalizing s with
  | zero =>
    rw [exactly, matches_empty, List.length_eq_zero_iff]
    constructor
    · rintro rfl; simp
    · exact And.left
  | succ n ih =>
    cases s with
    | nil => simp [exactly, matches_seq_char]
    | cons c t => simp [exactly, matches_seq_char_cons, ih, and_left_comm]

theorem matches_atMost_char {n : Nat} :
    Matches (atMost n (char belongs)) s ↔ s.length ≤ n ∧ ∀ c ∈ s, belongs c = true := by
  induction n generalizing s with
  | zero =>
    rw [atMost, matches_empty, Nat.le_zero, List.length_eq_zero_iff]
    constructor
    · rintro rfl; simp
    · exact And.left
  | succ n ih =>
    cases s with
    | nil => simp [atMost, matches_alt]
    | cons c t => simp [atMost, matches_alt, matches_seq_char_cons, ih, and_left_comm]

/-- A run of a number of characters between the two given. -/
theorem matches_between_char {low high : Nat} (h : low ≤ high) :
    Matches (between low high (char belongs)) s ↔
      (low ≤ s.length ∧ s.length ≤ high) ∧ ∀ c ∈ s, belongs c = true := by
  rw [between, matches_seq]
  simp only [matches_exactly_char, matches_atMost_char]
  constructor
  · rintro ⟨t, u, rfl, ⟨rfl, ht⟩, hu, belong⟩
    rw [List.length_append]
    exact ⟨by omega, List.forall_mem_append.mpr ⟨ht, belong⟩⟩
  · rintro ⟨⟨enough, few⟩, all⟩
    refine ⟨s.take low, s.drop low, (List.take_append_drop low s).symm,
      ⟨List.length_take_of_le enough, fun c hc => all c (List.mem_of_mem_take hc)⟩, ?_,
      fun c hc => all c (List.mem_of_mem_drop hc)⟩
    rw [List.length_drop]
    omega

end Classes

end BodySpec.Pattern
