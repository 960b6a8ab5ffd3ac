import BodySpec.Proofs.Bounds
import BodySpec.Proofs.NumberRange

/-!
# Numbers as texts

A finite number is written with its shortest decimal, positional or scientific. The positional form is a plain decimal,
and is read back to the number (`ofPlain?_text_of_isPositional`); the scientific form has an exponent, so it is no plain
decimal (`ofPlain?_text_of_not_isPositional`). Which form is used depends on the exponent of the first digit, and so on
the magnitude of the number alone (`isPositional_iff`): rounding keeps the order, so it keeps the number on its side of
a power of ten, and at the two powers where the form changes it is seen by computation.

So `isBetween` judges a number like `number` does if that is written without an exponent, and refuses it otherwise
(`Builtin.isBetween_number`). The numbers of a body are finite and in range (`Json.inRange_of_ofBytes?`).
-/

namespace BodySpec

namespace Binary64

open Text

/-! ## The positional form -/

/-- The exponent of the first digit of a number. -/
def firstExponent (x : Binary64) : Int :=
  x.shortest.exponent + (Nat.toDigits 10 x.shortest.significand).length - 1

/-- The text `s` has a point with digits on both sides, which are those of `digits · 10 ^ exponent`. -/
structure IsPositional (s digits : List Char) (exponent : Int) (whole fraction : List Char) : Prop where
  text : s = whole ++ '.' :: fraction
  whole_digits : ∀ c ∈ whole, c.isDigit = true
  fraction_digits : ∀ c ∈ fraction, c.isDigit = true
  fraction_ne_nil : fraction ≠ []
  /-- The places after the point make the power of ten whole. -/
  places : 0 ≤ exponent + fraction.length
  value : Nat.ofDigitChars 10 (whole ++ fraction) 0 =
    Nat.ofDigitChars 10 digits 0 * 10 ^ (exponent + fraction.length).toNat

theorem isDigit_of_mem_replicate {n : Nat} {c : Char} (hc : c ∈ List.replicate n '0') : c.isDigit = true :=
  List.eq_of_mem_replicate hc ▸ rfl

theorem exists_isPositional {digits : List Char} (hs : digits ≠ []) (hd : ∀ c ∈ digits, c.isDigit = true)
    (exponent : Int) :
    ∃ whole fraction, IsPositional (positional digits exponent).toList digits exponent whole fraction := by
  have length : 0 < digits.length := List.length_pos_iff.mpr hs
  have zero : ∀ c ∈ ['0'], c.isDigit = true := List.forall_mem_singleton.mpr rfl
  rw [positional]
  split
  · rename_i nonneg
    have places : (exponent + (['0'].length : Nat)).toNat = exponent.toNat + 1 := by
      rw [List.length_singleton]; omega
    refine ⟨digits ++ List.replicate exponent.toNat '0', ['0'], by simp, ?_, zero, List.cons_ne_nil _ _,
      by simp; omega, ?_⟩
    · exact List.forall_mem_append.mpr ⟨hd, fun c hc => isDigit_of_mem_replicate hc⟩
    · rw [places, Nat.ofDigitChars_append, Nat.ofDigitChars_append, Nat.ofDigitChars_replicate_zero]
      simp [Nat.ofDigitChars_cons, pow_succ]
      ring
  · rename_i negative
    split
    · rename_i inside
      refine ⟨digits.take (digits.length + exponent).toNat, digits.drop (digits.length + exponent).toNat, by simp,
        fun c hc => hd c (List.mem_of_mem_take hc), fun c hc => hd c (List.mem_of_mem_drop hc), ?_, ?_, ?_⟩
      · rw [Ne, List.drop_eq_nil_iff]; omega
      · rw [List.length_drop]; omega
      · have whole : (exponent + ((digits.drop (digits.length + exponent).toNat).length : Nat)).toNat = 0 := by
          rw [List.length_drop]; omega
        rw [List.take_append_drop, whole, pow_zero, Nat.mul_one]
    · rename_i outside
      refine ⟨['0'], List.replicate (-(digits.length + exponent)).toNat '0' ++ digits, by simp, zero,
        ?_, ?_, ?_, ?_⟩
      · exact List.forall_mem_append.mpr ⟨fun c hc => isDigit_of_mem_replicate hc, hd⟩
      · exact List.append_ne_nil_of_right_ne_nil _ hs
      · rw [List.length_append, List.length_replicate]; omega
      · have whole : (exponent +
            ((List.replicate (-(digits.length + exponent)).toNat '0' ++ digits).length : Nat)).toNat =
            0 := by
          rw [List.length_append, List.length_replicate]; omega
        rw [whole, pow_zero, Nat.mul_one, Nat.ofDigitChars_append, Nat.ofDigitChars_append,
          Nat.ofDigitChars_replicate_zero]
        simp [Nat.ofDigitChars_cons]

theorem IsPositional.pointParts? {s digits whole fraction : List Char} {exponent : Int}
    (h : IsPositional s digits exponent whole fraction) :
    pointParts? s = some (digitValues whole, digitValues fraction) :=
  h.text ▸ pointParts?_point h.whole_digits h.fraction_ne_nil h.fraction_digits

theorem isSign_text (x : Binary64) : IsSign (if x.negative then "-" else "").toList x.negative := by
  cases h : x.negative with
  | true => exact .minus
  | false => exact .none

/-- The text of a number other than zero. -/
theorem text_of_not_isZero {x : Binary64} (h : x.isZero = false) :
    x.text.toList = (if x.negative then "-" else "").toList ++
      (if isPositional x.firstExponent then positional (Nat.toDigits 10 x.shortest.significand) x.shortest.exponent
        else scientific (Nat.toDigits 10 x.shortest.significand) x.firstExponent).toList := by
  rw [text, h, if_neg Bool.false_ne_true, String.toList_append]
  rfl

theorem ofPlain?_text_of_isZero {x : Binary64} (h : x.isZero = true) : ofPlain? x.text.toList = some x := by
  have parts : pointParts? ['0', '.', '0'] = some ([0], [0]) := rfl
  have units : x.units = 0 := eq_of_beq h
  have written : x.text.toList = (if x.negative then "-" else "").toList ++ ['0', '.', '0'] := by
    rw [text, h, if_pos rfl, String.toList_append]
    rfl
  rw [written, ofPlain?_of_pointParts? (isSign_text x) parts]
  have zero : round x.negative (decimalValue ([0] ++ [0])) (Nat.pow 10 [0].length) = ⟨x.negative, 0⟩ :=
    round_zero x.negative (by decide)
  rw [zero, ← units]

/-- A number in positional form is read back. -/
theorem ofPlain?_text_of_isPositional {x : Binary64} (hx : x.IsFinite) (nonzero : x.isZero = false)
    (h : isPositional x.firstExponent = true) : ofPlain? x.text.toList = some x := by
  have digits : ∀ c ∈ Nat.toDigits 10 x.shortest.significand, c.isDigit = true := fun c hc =>
    Nat.isDigit_of_mem_toDigits (by decide) (by decide) hc
  obtain ⟨whole, fraction, positional⟩ := exists_isPositional Nat.toDigits_ne_nil digits x.shortest.exponent
  have value : decimalValue (digitValues whole ++ digitValues fraction) =
      x.shortest.significand * 10 ^ (x.shortest.exponent + fraction.length).toNat := by
    rw [digitValues, digitValues, ← List.map_append, decimalValue_map, positional.value,
      Nat.ofDigitChars_ten_toDigits]
  have places : (digitValues fraction).length = fraction.length := List.length_map _
  rw [text_of_not_isZero nonzero, if_pos h, ofPlain?_of_pointParts? (isSign_text x) positional.pointParts?,
    value, places]
  exact congrArg some (round_shortest hx positional.places)

/-- A number in scientific form is not read. -/
theorem ofPlain?_text_of_not_isPositional {x : Binary64} (nonzero : x.isZero = false)
    (h : isPositional x.firstExponent = false) : ofPlain? x.text.toList = none := by
  have marker : 'e' ∈ (if 0 ≤ x.firstExponent then "e+" else "e-").toList := by split <;> decide
  refine ofPlain?_eq_none_of_mem ?_
  rw [text_of_not_isZero nonzero, h, if_neg Bool.false_ne_true, scientific]
  simp only [String.toList_append]
  exact List.mem_append_right _ (List.mem_append_left _ (List.mem_append_right _ marker))

/-! ## Where the form changes -/

/-- The number nearest to a power of ten. -/
def tenPower (j : Int) : Binary64 := round false (10 ^ j.toNat) (10 ^ (-j).toNat)

section First

variable {x : Binary64} (hx : x.IsFinite) (nonzero : x.isZero = false)
include hx nonzero

theorem significand_pos : 0 < x.shortest.significand := by
  refine Nat.pos_of_ne_zero fun zero => ?_
  have back := round_shortest hx (e := (-x.shortest.exponent).toNat) (by omega)
  rw [zero, Nat.zero_mul, round_zero _ (Nat.pow_pos (by decide))] at back
  rw [← back] at nonzero
  cases nonzero

/-- The number of digits of the shortest decimal. -/
theorem significand_bounds : ∃ more, (Nat.toDigits 10 x.shortest.significand).length = more + 1 ∧
    10 ^ more ≤ x.shortest.significand ∧ x.shortest.significand < 10 ^ (more + 1) := by
  obtain ⟨more, length⟩ : ∃ more, (Nat.toDigits 10 x.shortest.significand).length = more + 1 :=
    Nat.exists_eq_succ_of_ne_zero (Nat.ne_of_gt Nat.length_toDigits_pos)
  have bound : ∀ k, 0 < k → (more + 1 ≤ k ↔ x.shortest.significand < 10 ^ k) := fun k hk => by
    rw [← length, Nat.length_toDigits_le_iff (by decide) hk]
  refine ⟨more, length, ?_, (bound (more + 1) (by omega)).mp (Nat.le_refl _)⟩
  rcases Nat.eq_zero_or_pos more with rfl | positive
  · exact significand_pos hx nonzero
  · exact Nat.le_of_not_lt (mt (bound more positive).mpr (by omega))

/-- A number whose first digit has an exponent of at least `j` is not below `10 ^ j`. -/
theorem tenPower_le {j : Int} (h : j ≤ x.firstExponent) : (tenPower j).units ≤ x.units := by
  obtain ⟨more, length, low, _⟩ := significand_bounds hx nonzero
  rw [firstExponent, length] at h
  obtain ⟨e, he⟩ : ∃ e : Nat, e = (-x.shortest.exponent).toNat := ⟨_, rfl⟩
  rw [← round_shortest hx (e := e) (by omega)]
  refine units_round_mono (Nat.pow_pos (by decide)) (Nat.pow_pos (by decide)) ?_
  calc 10 ^ j.toNat * 10 ^ e = 10 ^ (j.toNat + e) := (pow_add 10 _ _).symm
    _ ≤ 10 ^ (more + (x.shortest.exponent + e).toNat + (-j).toNat) := Nat.pow_le_pow_right (by decide) (by omega)
    _ = 10 ^ more * 10 ^ (x.shortest.exponent + e).toNat * 10 ^ (-j).toNat := by rw [pow_add, pow_add]
    _ ≤ x.shortest.significand * 10 ^ (x.shortest.exponent + e).toNat * 10 ^ (-j).toNat :=
      Nat.mul_le_mul_right _ (Nat.mul_le_mul_right _ low)

/-- A number whose first digit has an exponent below `j` is not above `10 ^ j`. -/
theorem le_tenPower {j : Int} (h : x.firstExponent < j) : x.units ≤ (tenPower j).units := by
  obtain ⟨more, length, _, high⟩ := significand_bounds hx nonzero
  rw [firstExponent, length] at h
  obtain ⟨e, he⟩ : ∃ e : Nat, e = (-x.shortest.exponent).toNat := ⟨_, rfl⟩
  rw [← round_shortest hx (e := e) (by omega)]
  refine units_round_mono (Nat.pow_pos (by decide)) (Nat.pow_pos (by decide)) ?_
  calc x.shortest.significand * 10 ^ (x.shortest.exponent + e).toNat * 10 ^ (-j).toNat
      ≤ 10 ^ (more + 1) * 10 ^ (x.shortest.exponent + e).toNat * 10 ^ (-j).toNat :=
        Nat.mul_le_mul_right _ (Nat.mul_le_mul_right _ (Nat.le_of_lt high))
    _ = 10 ^ (more + 1 + (x.shortest.exponent + e).toNat + (-j).toNat) := by
      rw [pow_add _ (_ + _), pow_add _ (more + 1)]
    _ ≤ 10 ^ (j.toNat + e) := Nat.pow_le_pow_right (by decide) (by omega)
    _ = 10 ^ j.toNat * 10 ^ e := pow_add 10 _ _

/-- A number is written in positional form if it is at least `10 ^ (-5)` and less than `10 ^ 16` in magnitude. -/
theorem isPositional_iff : isPositional x.firstExponent = true ↔
    (tenPower (-5)).units ≤ x.units ∧ x.units < (tenPower 16).units := by
  have least : ∀ negative, firstExponent ⟨negative, (tenPower (-5)).units⟩ = -5 := by decide +kernel
  have beyond : ∀ negative, firstExponent ⟨negative, (tenPower 16).units⟩ = 16 := by decide +kernel
  rw [isPositional, Bool.and_eq_true, decide_eq_true_iff, decide_eq_true_iff]
  constructor
  · rintro ⟨low, high⟩
    refine ⟨tenPower_le hx nonzero low, Nat.lt_of_le_of_ne (le_tenPower hx nonzero (by omega)) fun same => ?_⟩
    have first : x.firstExponent = 16 :=
      (congrArg (fun units => firstExponent ⟨x.negative, units⟩) same).trans (beyond x.negative)
    omega
  · rintro ⟨low, high⟩
    constructor
    · by_contra below
      have same : x.units = (tenPower (-5)).units := Nat.le_antisymm (le_tenPower hx nonzero (by omega)) low
      have first : x.firstExponent = -5 :=
        (congrArg (fun units => firstExponent ⟨x.negative, units⟩) same).trans (least x.negative)
      omega
    · by_contra above
      exact Nat.not_le_of_lt high (tenPower_le hx nonzero (by omega))

end First

/-- Zero, or at least the number nearest to `10 ^ (-5)` and less than `10 ^ 16` in magnitude. -/
def IsPlain (x : Binary64) : Prop :=
  x.isZero = true ∨ ((tenPower (-5)).units ≤ x.units ∧ x.units < (tenPower 16).units)

/-- **The text of a number is a plain decimal if the number is plain, and then reads back.** -/
theorem ofPlain?_text {x : Binary64} (hx : x.IsFinite) :
    (x.IsPlain → ofPlain? x.text.toList = some x) ∧ (¬ x.IsPlain → ofPlain? x.text.toList = none) := by
  cases zero : x.isZero with
  | true => exact ⟨fun _ => ofPlain?_text_of_isZero zero, fun scientific => absurd (.inl zero) scientific⟩
  | false =>
    have plain : x.IsPlain ↔ isPositional x.firstExponent = true := by
      rw [IsPlain, zero, isPositional_iff hx zero]
      simp
    rw [plain, Bool.not_eq_true]
    exact ⟨ofPlain?_text_of_isPositional hx zero, ofPlain?_text_of_not_isPositional zero⟩

end Binary64

/-! ## JSON numbers -/

namespace Number

/-- A number that is written without an exponent. -/
def IsPlain : Number → Prop
  | .int _ => True
  | .float x => x.IsPlain

theorem ofPlain?_text {v : Number} (h : v.InRange) :
    (v.IsPlain → Binary64.ofPlain? v.text.toList = some v.toBinary64) ∧
    (¬ v.IsPlain → Binary64.ofPlain? v.text.toList = none) := by
  cases v with
  | int n => exact ⟨fun _ => Binary64.ofPlain?_of_spellsInt (Binary64.spellsInt_text n), fun h => absurd trivial h⟩
  | float x => exact Binary64.ofPlain?_text h

theorem units_toBinary64_le {v : Number} (h : v.InRange) : v.toBinary64.units ≤ Binary64.infiniteUnits := by
  cases v with
  | int n => exact Binary64.units_round_le _ _ _
  | float x => exact Nat.le_of_lt h.units_lt

end Number

namespace Builtin

/-- **A number that is written without an exponent is judged as a number between bounds, and one with an exponent is
refused.** The bounds are each missing, null or a number, and may be given as arguments or in one array. So `isBetween`
accepts every number without an exponent if there are no bounds. -/
theorem isBetween_number {v : Number} (hv : v.InRange) {bounds : List Json} (hb : AreBounds bounds) :
    (v.IsPlain →
      isBetween.holds (.number v) (bounds.map .value) = number.holds (.number v) (bounds.map .value) ∧
      isBetween.holds (.number v) [.value (.array bounds)] = number.holds (.number v) (bounds.map .value) ∧
      isBetween.holds (.number v) [] = true) ∧
    (¬ v.IsPlain → ∀ args, isBetween.holds (.number v) args = false) := by
  obtain ⟨plain, other⟩ := Number.ofPlain?_text hv
  constructor
  · intro hp
    have read := plain hp
    refine ⟨?_, ?_, ?_⟩
    · rw [number_holds_map, isBetween_holds_of_text rfl read (bounds?_map hb)]
    · rw [number_holds_map, isBetween_holds_of_text rfl read rfl]
    · rw [isBetween_holds_of_text rfl read (rfl : bounds? [] = some [])]
      refine (within_iff (List.forall_mem_nil _) (Number.units_toBinary64_le hv)).mpr ⟨?_, ?_⟩
      · exact fun _ missing => absurd missing (by simp)
      · exact fun _ missing => absurd missing (by simp)
  · exact fun hp args => isBetween_holds_of_unread rfl (other hp) args

/-- The least positive number that is written without an exponent, with itself as the greatest allowed. -/
theorem leastPlain_atBound :
    (Number.float (Binary64.tenPower (-5))).InRange ∧
      AreBounds [.null, .number (.float (Binary64.tenPower (-5)))] ∧
      isBetween.holds (.number (.float (Binary64.tenPower (-5))))
        [.value (.array [.null, .number (.float (Binary64.tenPower (-5)))])] = true := by
  have finite : (Binary64.tenPower (-5)).IsFinite := Binary64.isFinite_round (by decide) (by decide +kernel)
  have bounds : AreBounds [.null, .number (.float (Binary64.tenPower (-5)))] :=
    List.forall_mem_cons.mpr ⟨.inl rfl, List.forall_mem_singleton.mpr (.inr ⟨_, rfl⟩)⟩
  have plain : (Binary64.tenPower (-5)).IsPlain := .inr ⟨Nat.le_refl _, by decide +kernel⟩
  obtain ⟨_, asNumber, _⟩ := (isBetween_number (v := .float (Binary64.tenPower (-5))) finite bounds).1 plain
  exact ⟨finite, bounds, asNumber.trans (by decide +kernel)⟩

/-- The number `1e16` is refused without any bounds. -/
theorem tenPower_refused :
    number.holds (.number (.float (Binary64.tenPower 16))) [] = true ∧
      isBetween.holds (.number (.float (Binary64.tenPower 16))) [] = false ∧
      ¬ ∀ (v : Number) (bounds : List Json), v.InRange → AreBounds bounds →
        isBetween.holds (.number v) (bounds.map .value) = number.holds (.number v) (bounds.map .value) := by
  have accepted : number.holds (.number (.float (Binary64.tenPower 16))) [] = true := by decide +kernel
  have refused : isBetween.holds (.number (.float (Binary64.tenPower 16))) [] = false := by decide +kernel
  refine ⟨accepted, refused, fun alike => ?_⟩
  have finite : (Binary64.tenPower 16).IsFinite := Binary64.isFinite_round (by decide) (by decide +kernel)
  have same := alike (.float (Binary64.tenPower 16)) [] finite (List.forall_mem_nil _)
  exact absurd (refused.symm.trans (same.trans accepted)) Bool.false_ne_true

end Builtin

end BodySpec
