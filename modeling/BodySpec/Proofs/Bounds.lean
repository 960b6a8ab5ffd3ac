import BodySpec.Builtin.Judgement
import BodySpec.Proofs.DecimalTexts
import BodySpec.Proofs.Rounding

/-!
# Integers between bounds

A value and its bounds are compared as binary64 numbers. So an integer obeys an integer bound if it is on the right side
of it, or is rounded to the same number as the bound (`Builtin.ObeysRounded`); this happens to two different integers
only if neither is below `2 ^ 53` in magnitude. Main statement: integers and their decimal texts are judged in this way,
and alike (`Builtin.integer_between_bounds`).

The judgement of a number and that of a text take the bounds from their arguments by different routes, to the same two
bounds (`bound?_map`, `bounds?_map`), and one lemma says what it is to lie between them (`within_iff`).
-/

namespace BodySpec

/-! ## Decimal texts of integers -/

/-- A decimal text of an integer: a minus if it is negative, otherwise perhaps a plus, then any number of zeros, then
its digits. -/
def SpellsInt (s : List Char) (n : Int) : Prop :=
  ∃ sign zeros, Binary64.IsSign sign (decide (n < 0)) ∧
    s = sign ++ (List.replicate zeros '0' ++ Nat.toDigits 10 n.natAbs)

namespace Binary64

theorem ofPlain?_of_spellsInt {s : List Char} {n : Int} (h : SpellsInt s n) : ofPlain? s = some (ofInt n) := by
  obtain ⟨sign, zeros, hsign, rfl⟩ := h
  have digits : ∀ c ∈ List.replicate zeros '0' ++ Nat.toDigits 10 n.natAbs, c.isDigit = true := by
    refine List.forall_mem_append.mpr
      ⟨fun c hc => ?_, fun c hc => Nat.isDigit_of_mem_toDigits (by decide) (by decide) hc⟩
    rw [List.eq_of_mem_replicate hc]
    rfl
  have nonempty : List.replicate zeros '0' ++ Nat.toDigits 10 n.natAbs ≠ [] :=
    List.append_ne_nil_of_right_ne_nil _ Nat.toDigits_ne_nil
  rw [ofPlain?_of_pointParts? hsign (pointParts?_whole nonempty digits), List.append_nil, digitValues,
    Text.decimalValue_map, Nat.ofDigitChars_append, Nat.ofDigitChars_replicate_zero, Nat.mul_zero,
    Nat.ofDigitChars_ten_toDigits]
  rfl

theorem spellsInt_text (n : Int) : SpellsInt (Number.int n).text.toList n := by
  cases n with
  | ofNat m =>
    have written : (Number.int (.ofNat m)).text = String.ofList (Nat.toDigits 10 m) := Nat.toString_eq_ofList_toDigits
    refine ⟨[], 0, .none, ?_⟩
    rw [written, String.toList_ofList]
    rfl
  | negSucc m =>
    have written : (Number.int (.negSucc m)).text = "-" ++ String.ofList (Nat.toDigits 10 (m + 1)) :=
      congrArg ("-" ++ ·) Nat.toString_eq_ofList_toDigits
    have negative : decide (Int.negSucc m < 0) = true := decide_eq_true (Int.negSucc_lt_zero m)
    refine ⟨['-'], 0, negative ▸ .minus, ?_⟩
    rw [written, String.toList_append, String.toList_ofList (l := Nat.toDigits 10 (m + 1))]
    rfl

end Binary64

namespace Builtin

/-! ## Bounds among arguments -/

/-- Bounds that are each null or a number. -/
def AreBounds (bounds : List Json) : Prop := ∀ b ∈ bounds, b = .null ∨ ∃ m, b = .number m

theorem bound?_map (bounds : List Json) (position : Nat) (default : Binary64) :
    bound? (bounds.map Argument.value) position default = boundOf? bounds[position]? default := by
  rw [bound?, List.getElem?_map]
  cases bounds[position]? <;> rfl

theorem bounds?_map {bounds : List Json} (h : AreBounds bounds) :
    bounds? (bounds.map Argument.value) = some bounds := by
  have plain : ∀ bounds : List Json,
      (bounds.map (Argument.value (ρ := Unit))).mapM Argument.value? = some bounds := by
    intro bounds
    induction bounds with
    | nil => rfl
    | cons b bounds ih => simp [List.mapM_cons, ih, Argument.value?]
  rw [bounds?]
  · exact plain bounds
  · intro items single
    obtain ⟨b, rfl, same⟩ := List.map_eq_singleton_iff.mp single
    rcases h b List.mem_cons_self with rfl | ⟨_, rfl⟩ <;> cases same

/-- A bound that is missing or null does not bind, and a number does. -/
theorem within_iff {bounds : List Json} (h : AreBounds bounds) {x : Binary64}
    (hx : x.units ≤ Binary64.infiniteUnits) :
    within x (boundOf? bounds[0]? Binary64.negInfinity) (boundOf? bounds[1]? Binary64.infinity) = true ↔
      (∀ m, bounds[0]? = some (.number m) → m.toBinary64 ≤ x) ∧
        ∀ m, bounds[1]? = some (.number m) → x ≤ m.toBinary64 := by
  have kind : ∀ position : Nat, bounds[position]? = none ∨ bounds[position]? = some Json.null ∨
      ∃ m, bounds[position]? = some (Json.number m) := by
    intro position
    cases hb : bounds[position]? with
    | none => exact .inl rfl
    | some b =>
      rcases h b (List.mem_of_getElem? hb) with rfl | ⟨m, rfl⟩
      · exact .inr (.inl rfl)
      · exact .inr (.inr ⟨m, rfl⟩)
  have least := Binary64.negInfinity_le hx
  have greatest := Binary64.le_infinity hx
  rcases kind 0 with h0 | h0 | ⟨_, h0⟩ <;> rcases kind 1 with h1 | h1 | ⟨_, h1⟩ <;>
    simp [h0, h1, boundOf?, within, least, greatest]

/-! ## Integers -/

/-- Bounds that are each null or an integer. -/
def AreIntegerBounds (bounds : List Json) : Prop := ∀ b ∈ bounds, b = .null ∨ ∃ m, b = .number (.int m)

theorem AreIntegerBounds.areBounds {bounds : List Json} (h : AreIntegerBounds bounds) : AreBounds bounds :=
  fun b hb => (h b hb).imp_right fun ⟨_, hm⟩ => ⟨_, hm⟩

/-- An integer is not below the first bound and not above the second, where a bound that has the same nearest number
counts as met, and one that is missing or null does not bind. -/
def ObeysRounded (n : Int) (bounds : List Json) : Prop :=
  (∀ low, bounds[0]? = some (.number (.int low)) → low ≤ n ∨ Binary64.ofInt low = Binary64.ofInt n) ∧
    ∀ high, bounds[1]? = some (.number (.int high)) → n ≤ high ∨ Binary64.ofInt n = Binary64.ofInt high

/-- Between integer bounds, an integer is judged by its nearest number. -/
theorem within_ofInt_iff {n : Int} {bounds : List Json} (h : AreIntegerBounds bounds) :
    within (Binary64.ofInt n) (boundOf? bounds[0]? Binary64.negInfinity)
        (boundOf? bounds[1]? Binary64.infinity) = true ↔
      ObeysRounded n bounds := by
  have integer : ∀ (position : Nat) (m : Number), bounds[position]? = some (.number m) → ∃ k, m = .int k := by
    intro position m hm
    rcases h _ (List.mem_of_getElem? hm) with null | ⟨k, hk⟩
    · cases null
    · exact ⟨k, Json.number.inj hk⟩
  rw [within_iff (x := Binary64.ofInt n) h.areBounds (Binary64.units_round_le _ _ _)]
  refine and_congr ⟨fun low k hk => ?_, fun low m hm => ?_⟩ ⟨fun high k hk => ?_, fun high m hm => ?_⟩
  · exact Binary64.ofInt_le_ofInt_iff_or.mp (low _ hk)
  · obtain ⟨k, rfl⟩ := integer 0 m hm
    exact Binary64.ofInt_le_ofInt_iff_or.mpr (low k hm)
  · exact Binary64.ofInt_le_ofInt_iff_or.mp (high _ hk)
  · obtain ⟨k, rfl⟩ := integer 1 m hm
    exact Binary64.ofInt_le_ofInt_iff_or.mpr (high k hm)

theorem number_holds_map (n : Number) (bounds : List Json) :
    number.holds (.number n) (bounds.map .value) =
      within n.toBinary64 (boundOf? bounds[0]? Binary64.negInfinity) (boundOf? bounds[1]? Binary64.infinity) := by
  rw [holds, checkNumber, bound?_map, bound?_map]

/-- What a value with a plain decimal as its text is judged by, whichever way the bounds are given. -/
theorem isBetween_holds_of_text {v : Json} {s : String} {x : Binary64} (text : scalarText? v = some s)
    (read : Binary64.ofPlain? s.toList = some x) {args : List (Argument Unit)} {bounds : List Json}
    (given : bounds? args = some bounds) :
    isBetween.holds v args =
      within x (boundOf? bounds[0]? Binary64.negInfinity) (boundOf? bounds[1]? Binary64.infinity) := by
  rw [holds, checkIsBetween, text, given, Option.bind_some, read]

theorem isBetween_holds_of_unread {v : Json} {s : String} (text : scalarText? v = some s)
    (unread : Binary64.ofPlain? s.toList = none) (args : List (Argument Unit)) : isBetween.holds v args = false := by
  rw [holds, checkIsBetween, text, Option.bind_some, unread]
  cases bounds? args <;> rfl

/-- **Integers lie between integer bounds up to rounding.** A number that is an integer, a decimal text of it with the
bounds as two arguments, and the text with the bounds in one array are judged alike: each is accepted if and only if the
integer obeys its bounds or has the same nearest number as the bound it does not obey. Two different integers have the
same nearest number only if both are at least `2 ^ 53` in magnitude. -/
theorem integer_between_bounds {n : Int} {bounds : List Json} (h : AreIntegerBounds bounds) {t : String}
    (spelled : SpellsInt t.toList n) :
    (number.holds (.number (.int n)) (bounds.map .value) = true ↔ ObeysRounded n bounds) ∧
    (isBetween.holds (.string t) (bounds.map .value) = true ↔ ObeysRounded n bounds) ∧
    (isBetween.holds (.string t) [.value (.array bounds)] = true ↔ ObeysRounded n bounds) ∧
    ∀ m, Binary64.ofInt m = Binary64.ofInt n → m ≠ n → 2 ^ 53 ≤ m.natAbs ∧ 2 ^ 53 ≤ n.natAbs := by
  have read := Binary64.ofPlain?_of_spellsInt spelled
  refine ⟨?_, ?_, ?_, fun m same differs => Binary64.le_natAbs_of_ofInt_eq same differs⟩
  · rw [number_holds_map]
    exact within_ofInt_iff h
  · rw [isBetween_holds_of_text rfl read (bounds?_map h.areBounds)]
    exact within_ofInt_iff h
  · rw [isBetween_holds_of_text rfl read rfl]
    exact within_ofInt_iff h

/-- One above `2 ^ 53`, with a plus and a zero in its text, between nothing and `2 ^ 53`. -/
theorem beyond_obeys_roundedBound :
    AreIntegerBounds [.null, .number (.int 9007199254740992)] ∧
      SpellsInt "+09007199254740993".toList 9007199254740993 ∧
      isBetween.holds (.string "+09007199254740993") [.value .null, .value (.number (.int 9007199254740992))] = true ∧
      isBetween.holds (.string "+09007199254740993")
        [.value (.array [.null, .number (.int 9007199254740992)])] = true := by
  have bounds : AreIntegerBounds [.null, .number (.int 9007199254740992)] :=
    List.forall_mem_cons.mpr ⟨.inl rfl, List.forall_mem_singleton.mpr (.inr ⟨_, rfl⟩)⟩
  have spelled : SpellsInt "+09007199254740993".toList 9007199254740993 := ⟨['+'], 1, .plus, by decide +kernel⟩
  have same : Binary64.ofInt 9007199254740993 = Binary64.ofInt 9007199254740992 :=
    Binary64.ofInt_eq_ofInt_iff.mpr (by decide +kernel)
  have obeys : ObeysRounded 9007199254740993 [.null, .number (.int 9007199254740992)] := by
    refine ⟨fun low none => absurd none (by simp), fun high hhigh => ?_⟩
    cases hhigh
    exact .inr same
  obtain ⟨_, apart, together, _⟩ := integer_between_bounds bounds spelled
  exact ⟨bounds, spelled, apart.mpr obeys, together.mpr obeys⟩

/-- So an integer is accepted above its upper bound, as a number and as a text. -/
theorem beyond_above_bound :
    number.holds (.number (.int 9007199254740993))
      [.value (.number (.int 0)), .value (.number (.int 9007199254740992))] =
      true ∧
    isBetween.holds (.string "9007199254740993") [.value (.number (.int 0)), .value (.number (.int 9007199254740992))] =
      true ∧
    ¬ ∀ n low high : Int,
      number.holds (.number (.int n)) [.value (.number (.int low)), .value (.number (.int high))] = true ↔
        low ≤ n ∧ n ≤ high := by
  have accepted : number.holds (.number (.int 9007199254740993))
      [.value (.number (.int 0)), .value (.number (.int 9007199254740992))] = true := by decide +kernel
  refine ⟨accepted, by decide +kernel, fun exactly => ?_⟩
  have inside := (exactly 9007199254740993 0 9007199254740992).mp accepted
  omega

end Builtin

end BodySpec
