import BodySpec.Builtin.Judgement
import BodySpec.Proofs.Rounding

/-!
# Lengths between bounds

The length of a text and that of an array are compared with their bounds in binary64. A length below `2 ^ 53` is a
number of the format, and rounding keeps the order of integers, so an integer bound counts for what it is, however large
or negative. Main statement: a text lies between its two bounds and an array is not below its one if the integers say
so, a bound that is absent or null does not bind, and with any other bound nothing is accepted
(`Builtin.length_within_bounds`).
-/

namespace BodySpec.Builtin

/-! ## Bounds -/

/-- A bound that is absent, null or an integer, and the integer. -/
inductive IsIntegerBound : Option (Argument Unit) → Option Int → Prop
  | absent : IsIntegerBound none none
  | null : IsIntegerBound (some (.value .null)) none
  | integer (n : Int) : IsIntegerBound (some (.value (.number (.int n)))) (some n)

/-- An argument that is no bound: a value that is neither null nor a number, or a nested rule. -/
inductive IsNoBound : Argument Unit → Prop
  | bool (b : Bool) : IsNoBound (.value (.bool b))
  | text (s : String) : IsNoBound (.value (.string s))
  | array (items : List Json) : IsNoBound (.value (.array items))
  | object (members : Json.Members) : IsNoBound (.value (.object members))
  | rule : IsNoBound (.rule ())

section Bounds

variable {args : List (Argument Unit)} {position : Nat}

theorem bound?_of_isIntegerBound {bound : Option Int} (h : IsIntegerBound args[position]? bound) (default : Binary64) :
    bound? args position default = some (bound.elim default Binary64.ofInt) := by
  rw [bound?]
  generalize args[position]? = given at h ⊢
  cases h <;> rfl

theorem bound?_of_isNoBound {a : Argument Unit} (given : args[position]? = some a)
    (h : IsNoBound a) (default : Binary64) :
    bound? args position default = none := by
  rw [bound?, given]
  cases h <;> rfl

end Bounds

theorem within_none_left (x : Binary64) (max : Option Binary64) : within x none max = false := rfl

theorem within_none_right (x : Binary64) (min : Option Binary64) : within x min none = false := by
  cases min <;> rfl

/-! ## Lengths -/

section Lengths

variable {n : Nat} (h : n < 2 ^ 53)

include h

/-- A lower bound of a length, with an integer that counts where there is none. -/
theorem elim_le_ofNat_iff (bound : Option Int) (default : Nat) :
    bound.elim (Binary64.ofNat default) Binary64.ofInt ≤ Binary64.ofNat n ↔ bound.getD default ≤ n := by
  have exact : ∀ m : Int, Binary64.ofInt m ≤ Binary64.ofInt n ↔ m ≤ n := fun m =>
    Binary64.ofInt_le_ofInt_iff (.inr (by rwa [Int.natAbs_natCast]))
  cases bound with
  | none => exact exact default
  | some m => exact exact m

/-- An upper bound of a length, where none does not bind. -/
theorem ofNat_le_elim_iff (bound : Option Int) :
    Binary64.ofNat n ≤ bound.elim Binary64.infinity Binary64.ofInt ↔ ∀ m ∈ bound, (n : Int) ≤ m := by
  cases bound with
  | none =>
    have unbound : Binary64.ofNat n ≤ Binary64.infinity := Binary64.le_infinity (Binary64.units_round_le _ _ _)
    simpa using unbound
  | some m =>
    have exact : Binary64.ofNat n ≤ Binary64.ofInt m ↔ (n : Int) ≤ m :=
      Binary64.ofInt_le_ofInt_iff (m := n) (.inl (by rwa [Int.natAbs_natCast]))
    simpa using exact

end Lengths

theorem zero_eq_ofNat : Binary64.zero = Binary64.ofNat 0 := (Binary64.round_zero false Nat.one_pos).symm

section Integers

variable {args : List (Argument Unit)} {min max : Option Int}

theorem string_holds_iff (hmin : IsIntegerBound args[0]? min) (hmax : IsIntegerBound args[1]? max) {s : String}
    (hs : s.length < 2 ^ 53) :
    string.holds (.string s) args = true ↔ min.getD 0 ≤ s.length ∧ ∀ m ∈ max, (s.length : Int) ≤ m := by
  rw [holds, checkString, bound?_of_isIntegerBound hmin, bound?_of_isIntegerBound hmax, within, decide_eq_true_iff,
    zero_eq_ofNat, elim_le_ofNat_iff hs, ofNat_le_elim_iff hs]
  exact Iff.rfl

theorem arrayLength_holds_iff (hmin : IsIntegerBound args[0]? min) {items : List Json} (h : items.length < 2 ^ 53) :
    arrayLength.holds (.array items) args = true ↔ min.getD 1 ≤ items.length := by
  rw [holds, checkArrayLength, bound?_of_isIntegerBound hmin, Option.any_some, decide_eq_true_iff, elim_le_ofNat_iff h]
  exact Iff.rfl

end Integers

/-- Nothing has a length by a bound that is none. -/
theorem not_holds_of_isNoBound {args : List (Argument Unit)} {a : Argument Unit} (h : IsNoBound a) (v : Json) :
    (args[0]? = some a ∨ args[1]? = some a → string.holds v args = false) ∧
    (args[0]? = some a → arrayLength.holds v args = false) := by
  constructor
  · rintro (given | given)
    · cases v <;> simp [holds, checkString, bound?_of_isNoBound given h, within_none_left]
    · cases v <;> simp [holds, checkString, bound?_of_isNoBound given h, within_none_right]
  · intro given
    cases v <;> simp [holds, checkArrayLength, bound?_of_isNoBound given h]

/-- **Bounds of lengths are exact and inclusive.** -/
theorem length_within_bounds (args : List (Argument Unit)) :
    (∀ min max, IsIntegerBound args[0]? min → IsIntegerBound args[1]? max → ∀ s : String, s.length < 2 ^ 53 →
      (string.holds (.string s) args = true ↔ min.getD 0 ≤ s.length ∧ ∀ m ∈ max, s.length ≤ m)) ∧
    (∀ min, IsIntegerBound args[0]? min → ∀ items : List Json, items.length < 2 ^ 53 →
      (arrayLength.holds (.array items) args = true ↔ min.getD 1 ≤ items.length)) ∧
    ∀ a, IsNoBound a → ∀ v,
      (args[0]? = some a ∨ args[1]? = some a → string.holds v args = false) ∧
      (args[0]? = some a → arrayLength.holds v args = false) :=
  ⟨fun _ _ hmin hmax _ hs => string_holds_iff hmin hmax hs, fun _ hmin _ h => arrayLength_holds_iff hmin h,
    fun _ ha v => not_holds_of_isNoBound ha v⟩

/-- A text of five letters and an empty array, with bounds at both ends of the 64-bit ranges, and a rule for a bound. -/
theorem length_within_farBounds :
    string.holds (.string "hello") [.value (.number (.int (-9223372036854775808))),
      .value (.number (.int 18446744073709551615))] = true ∧
    arrayLength.holds (.array []) [.value .null] = false ∧ string.holds .null [.value .null, .rule ()] = false := by
  obtain ⟨texts, _⟩ := length_within_bounds [.value (.number (.int (-9223372036854775808))),
    .value (.number (.int 18446744073709551615))]
  obtain ⟨_, arrays, _⟩ := length_within_bounds [.value .null]
  obtain ⟨_, _, refused⟩ := length_within_bounds [.value .null, .rule ()]
  refine ⟨(texts _ _ (.integer _) (.integer _) "hello" (by decide)).mpr ⟨by decide, by decide⟩, ?_, ?_⟩
  · rw [Bool.eq_false_iff]
    intro accepted
    exact absurd ((arrays none .null [] (by decide)).mp accepted) (by decide)
  · exact (refused (.rule ()) .rule .null).1 (.inr rfl)

end BodySpec.Builtin
