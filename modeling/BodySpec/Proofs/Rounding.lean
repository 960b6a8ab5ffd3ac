import BodySpec.Binary64.Basic
import Mathlib.Tactic.Ring

/-!
# Rounding to binary64

`Representable` are the numbers of units that the format has. Rounding fixes them and keeps the order of quotients
(`nearestUnits_of_eq`, `nearestUnits_mono`), so whatever lies between two of them is rounded to something between them.

Integers up to `2 ^ 53` are representable. For that reason rounding keeps the strict order of two integers as soon as
one of them is below `2 ^ 53` in magnitude (`ofInt_lt_ofInt`), while two integers beyond may be rounded to the same
number.

The grid that a quotient is rounded to depends on its size, and so does the lemma that carries the order: on one grid it
is that of `roundQuotient` (`roundQuotient_mono`), and between quotients on different grids there is a power of two,
which is representable.
-/

namespace BodySpec.Binary64

/-! ## Quotients -/

/-- What is rounded up to an integer or beyond: what lies less than half below it, and the half if
the integer is even. -/
theorem le_roundQuotient_iff {num den m : Nat} (hd : 0 < den) :
    m ≤ roundQuotient num den ↔
      2 * (m * den) < 2 * num + den ∨ (2 * (m * den) = 2 * num + den ∧ m % 2 = 0) := by
  have split : den * (num / den) + num % den = num := Nat.div_add_mod num den
  have remainder : num % den < den := Nat.mod_lt num hd
  rw [roundQuotient]
  generalize num % den = r at split remainder
  generalize num / den = q at split
  rw [Nat.mul_comm] at split
  rcases Nat.lt_trichotomy m (q + 1) with h | rfl | h
  · have below : m * den ≤ q * den := Nat.mul_le_mul_right den (Nat.le_of_lt_succ h)
    split_ifs <;> omega
  · have next : (q + 1) * den = q * den + den := Nat.succ_mul q den
    split_ifs <;> omega
  · have above : (q + 2) * den ≤ m * den := Nat.mul_le_mul_right den h
    have next : (q + 2) * den = q * den + 2 * den := Nat.add_mul q 2 den
    split_ifs <;> omega

theorem roundQuotient_mono {num den num' den' : Nat} (hd : 0 < den) (hd' : 0 < den') (h : num * den' ≤ num' * den) :
    roundQuotient num den ≤ roundQuotient num' den' := by
  have threshold := (le_roundQuotient_iff hd).mp (Nat.le_refl (roundQuotient num den))
  generalize roundQuotient num den = m at threshold
  rw [le_roundQuotient_iff hd']
  have moved : (2 * num + den) * den' ≤ (2 * num' + den') * den := by
    calc (2 * num + den) * den' = 2 * (num * den') + den * den' := by ring
      _ ≤ 2 * (num' * den) + den * den' := by omega
      _ = (2 * num' + den') * den := by ring
  have swap : 2 * (m * den') * den = 2 * (m * den) * den' := by ring
  rcases threshold with below | ⟨half, even⟩
  · left
    refine Nat.lt_of_mul_lt_mul_right (a := den) ?_
    rw [swap]
    exact Nat.lt_of_lt_of_le (Nat.mul_lt_mul_of_pos_right below hd') moved
  · have reached : 2 * (m * den') ≤ 2 * num' + den' := by
      refine Nat.le_of_mul_le_mul_right ?_ hd
      rwa [swap, half]
    exact (Nat.lt_or_eq_of_le reached).imp_right fun half' => ⟨half', even⟩

theorem roundQuotient_mul {m den : Nat} (hd : 0 < den) : roundQuotient (m * den) den = m := by
  rw [roundQuotient, Nat.mul_div_cancel m hd, Nat.mul_mod_left, if_pos (.inl hd)]

theorem roundQuotient_le {num den m : Nat} (hd : 0 < den) (h : num ≤ m * den) : roundQuotient num den ≤ m := by
  have mono : roundQuotient num den ≤ roundQuotient (m * den) den :=
    roundQuotient_mono hd hd (Nat.mul_le_mul_right den h)
  rwa [roundQuotient_mul hd] at mono

theorem le_roundQuotient {num den m : Nat} (hd : 0 < den) (h : m * den ≤ num) : m ≤ roundQuotient num den := by
  have mono : roundQuotient (m * den) den ≤ roundQuotient num den :=
    roundQuotient_mono hd hd (Nat.mul_le_mul_right den h)
  rwa [roundQuotient_mul hd] at mono

/-- What a quotient is rounded to is at most half away. -/
theorem roundQuotient_within_half (num : Nat) {den : Nat} (hd : 0 < den) :
    2 * (roundQuotient num den * den) ≤ 2 * num + den ∧ 2 * num ≤ 2 * (roundQuotient num den * den) + den := by
  have atMost := (le_roundQuotient_iff hd).mp (Nat.le_refl (roundQuotient num den))
  have atLeast := mt (le_roundQuotient_iff (m := roundQuotient num den + 1) hd).mpr (Nat.not_succ_le_self _)
  have next : (roundQuotient num den + 1) * den = roundQuotient num den * den + den := Nat.succ_mul _ den
  omega

/-- An integer half of whose neighbourhood holds the quotient is what this is rounded to. -/
theorem roundQuotient_eq {num den m : Nat} (hd : 0 < den)
    (below : 2 * (m * den) < 2 * num + den ∨ (2 * (m * den) = 2 * num + den ∧ m % 2 = 0))
    (above : 2 * num < 2 * (m * den) + den ∨ (2 * num = 2 * (m * den) + den ∧ m % 2 = 0)) :
    roundQuotient num den = m := by
  refine Nat.le_antisymm (Nat.le_of_not_lt fun beyond => ?_) ((le_roundQuotient_iff hd).mpr below)
  have next : (m + 1) * den = m * den + den := Nat.succ_mul m den
  have reached := (le_roundQuotient_iff (m := m + 1) hd).mp beyond
  omega

/-! ## Numbers of the format -/

theorem exists_unitsInOne_eq : ∃ exponent, unitsInOne = 2 ^ exponent := ⟨1074, by decide +kernel⟩

theorem unitsInOne_pos : 0 < unitsInOne := by decide +kernel

/-- A number of units that the format has: a significand of at most 53 bits times a power of two. -/
def Representable (units : Nat) : Prop :=
  ∃ significand exponent, significand ≤ 2 ^ 53 ∧ units = significand * 2 ^ exponent

theorem spacing_le_iff {units s : Nat} : spacing units ≤ s ↔ units < 2 ^ (s + 53) := by
  have two : Nat.pow 2 53 = 2 ^ 53 := rfl
  rw [spacing, two]
  split
  · rename_i small
    have grows : 2 ^ 53 ≤ 2 ^ (s + 53) := Nat.pow_le_pow_right (by decide) (Nat.le_add_left 53 s)
    simp [Nat.lt_of_lt_of_le small grows]
  · rename_i large
    have nonzero : units ≠ 0 := by
      rintro rfl
      exact large (by decide)
    rw [← Nat.log2_lt nonzero]
    omega

theorem lt_two_pow_spacing (units : Nat) : units < 2 ^ (spacing units + 53) := spacing_le_iff.mp (Nat.le_refl _)

theorem spacing_mono {u v : Nat} (h : u ≤ v) : spacing u ≤ spacing v :=
  spacing_le_iff.mpr (Nat.lt_of_le_of_lt h (lt_two_pow_spacing v))

/-- Above the least grid, a number has 53 significant bits. -/
theorem two_pow_le_of_spacing {units s : Nat} (h : s < spacing units) : 2 ^ (s + 53) ≤ units :=
  Nat.le_of_not_lt (mt spacing_le_iff.mpr (Nat.not_le_of_lt h))

theorem representable_iff_dvd {units : Nat} : Representable units ↔ 2 ^ spacing units ∣ units := by
  constructor
  · rintro ⟨significand, exponent, bits, rfl⟩
    rcases Nat.lt_or_eq_of_le bits with bits | rfl
    · have near : spacing (significand * 2 ^ exponent) ≤ exponent := by
        rw [spacing_le_iff, Nat.add_comm, Nat.pow_add]
        exact Nat.mul_lt_mul_of_pos_right bits (Nat.two_pow_pos exponent)
      exact (pow_dvd_pow 2 near).mul_left significand
    · have near : spacing (2 ^ 53 * 2 ^ exponent) ≤ exponent + 1 := by
        rw [spacing_le_iff, ← Nat.pow_add]
        exact Nat.pow_lt_pow_right (by decide) (by omega)
      refine (pow_dvd_pow 2 near).trans ⟨2 ^ 52, ?_⟩
      ring
  · rintro ⟨significand, eq⟩
    refine ⟨significand, spacing units, ?_, by rw [Nat.mul_comm]; exact eq⟩
    have bound : 2 ^ spacing units * significand < 2 ^ spacing units * 2 ^ 53 := by
      rw [← eq, ← Nat.pow_add]
      exact lt_two_pow_spacing units
    exact Nat.le_of_lt (Nat.lt_of_mul_lt_mul_left bound)

/-! ## The nearest number -/

/-- The number of units nearest to a quotient of units, without a bound on the range. -/
def nearestUnits (num den : Nat) : Nat :=
  roundQuotient num (den * 2 ^ spacing (num / den)) * 2 ^ spacing (num / den)

theorem round_eq (negative : Bool) (num den : Nat) :
    round negative num den = ⟨negative, min (nearestUnits (num * unitsInOne) den) infiniteUnits⟩ := rfl

section Nearest

variable {num den num' den' units : Nat}

theorem nearestUnits_le (hd : 0 < den) (hu : Representable units) (h : num ≤ units * den) :
    nearestUnits num den ≤ units := by
  have below : num / den ≤ units := by
    rw [Nat.div_le_iff_le_mul_add_pred hd, Nat.mul_comm]
    omega
  obtain ⟨m, rfl⟩ := (pow_dvd_pow 2 (spacing_mono below)).trans (representable_iff_dvd.mp hu)
  rw [nearestUnits, Nat.mul_comm]
  refine Nat.mul_le_mul_left _
    (roundQuotient_le (Nat.mul_pos hd (Nat.two_pow_pos _)) (Nat.le_trans h (Nat.le_of_eq ?_)))
  ring

theorem le_nearestUnits (hd : 0 < den) (hu : Representable units) (h : units * den ≤ num) :
    units ≤ nearestUnits num den := by
  have above : units ≤ num / den := (Nat.le_div_iff_mul_le hd).mpr h
  -- it is enough to find a point of the grid that `num / den` is rounded to
  suffices point : ∃ m, units ≤ m * 2 ^ spacing (num / den) ∧ m * 2 ^ spacing (num / den) ≤ num / den by
    obtain ⟨m, hm, reached⟩ := point
    have reached' : m * (den * 2 ^ spacing (num / den)) ≤ num := by
      calc m * (den * 2 ^ spacing (num / den)) = m * 2 ^ spacing (num / den) * den := by ring
        _ ≤ num := (Nat.le_div_iff_mul_le hd).mp reached
    exact Nat.le_trans hm
      (Nat.mul_le_mul_right _ (le_roundQuotient (Nat.mul_pos hd (Nat.two_pow_pos _)) reached'))
  rcases Nat.lt_or_ge (spacing units) (spacing (num / den)) with coarser | same
  · obtain ⟨t, ht⟩ : ∃ t, spacing (num / den) = t + 1 :=
      Nat.exists_eq_succ_of_ne_zero (Nat.ne_zero_of_lt coarser)
    have power : 2 ^ 52 * 2 ^ (t + 1) = 2 ^ (t + 53) := by ring
    refine ⟨2 ^ 52, ?_, ?_⟩
    · rw [ht, power]
      exact Nat.le_of_lt (spacing_le_iff.mp (by omega))
    · rw [ht, power]
      exact two_pow_le_of_spacing (by omega)
  · obtain ⟨m, eq⟩ := (pow_dvd_pow 2 same).trans (representable_iff_dvd.mp hu)
    rw [Nat.mul_comm] at eq
    exact ⟨m, Nat.le_of_eq eq, eq ▸ above⟩

/-- Rounding fixes the numbers of the format. -/
theorem nearestUnits_of_eq (hd : 0 < den) (hu : Representable units) (h : num = units * den) :
    nearestUnits num den = units :=
  Nat.le_antisymm (nearestUnits_le hd hu (Nat.le_of_eq h)) (le_nearestUnits hd hu (Nat.le_of_eq h.symm))

/-- Rounding keeps the order. -/
theorem nearestUnits_mono (hd : 0 < den) (hd' : 0 < den') (h : num * den' ≤ num' * den) :
    nearestUnits num den ≤ nearestUnits num' den' := by
  have ordered : num / den ≤ num' / den' := by
    rw [Nat.le_div_iff_mul_le hd']
    refine Nat.le_of_mul_le_mul_right ?_ hd
    calc num / den * den' * den = num / den * den * den' := by ring
      _ ≤ num * den' := Nat.mul_le_mul_right den' (Nat.div_mul_le_self num den)
      _ ≤ num' * den := h
  rcases Nat.lt_or_eq_of_le (spacing_mono ordered) with finer | same
  · -- on different grids: the least power of two on the coarser grid lies between
    obtain ⟨t, ht⟩ : ∃ t, spacing (num' / den') = t + 1 := Nat.exists_eq_succ_of_ne_zero (Nat.ne_zero_of_lt finer)
    have power : Representable (2 ^ (t + 53)) := ⟨1, t + 53, Nat.one_le_two_pow, (Nat.one_mul _).symm⟩
    have below : num / den < 2 ^ (t + 53) := spacing_le_iff.mp (by omega)
    have above : 2 ^ (t + 53) ≤ num' / den' := two_pow_le_of_spacing (by omega)
    calc nearestUnits num den ≤ 2 ^ (t + 53) :=
          nearestUnits_le hd power (Nat.le_of_lt ((Nat.div_lt_iff_lt_mul hd).mp below))
      _ ≤ nearestUnits num' den' := le_nearestUnits hd' power ((Nat.le_div_iff_mul_le hd').mp above)
  · rw [nearestUnits, nearestUnits, same]
    have grid := Nat.two_pow_pos (spacing (num' / den'))
    refine Nat.mul_le_mul_right _ (roundQuotient_mono (Nat.mul_pos hd grid) (Nat.mul_pos hd' grid) ?_)
    rw [← Nat.mul_assoc, ← Nat.mul_assoc]
    exact Nat.mul_le_mul_right _ h

theorem nearestUnits_congr (hd : 0 < den) (hd' : 0 < den') (h : num * den' = num' * den) :
    nearestUnits num den = nearestUnits num' den' :=
  Nat.le_antisymm (nearestUnits_mono hd hd' (Nat.le_of_eq h)) (nearestUnits_mono hd' hd (Nat.le_of_eq h.symm))

theorem representable_nearestUnits (hd : 0 < den) : Representable (nearestUnits num den) := by
  refine ⟨_, spacing (num / den), roundQuotient_le (Nat.mul_pos hd (Nat.two_pow_pos _)) ?_, rfl⟩
  have bound : num < 2 ^ (spacing (num / den) + 53) * den := (Nat.div_lt_iff_lt_mul hd).mp (lt_two_pow_spacing _)
  calc num ≤ 2 ^ (spacing (num / den) + 53) * den := Nat.le_of_lt bound
    _ = 2 ^ 53 * (den * 2 ^ spacing (num / den)) := by ring

/-- Rounding keeps the order, also at the end of the range. -/
theorem units_round_mono {negative negative' : Bool} (hd : 0 < den) (hd' : 0 < den') (h : num * den' ≤ num' * den) :
    (round negative num den).units ≤ (round negative' num' den').units := by
  have scaled : num * unitsInOne * den' ≤ num' * unitsInOne * den := by
    rw [Nat.mul_right_comm, Nat.mul_right_comm num']
    exact Nat.mul_le_mul_right _ h
  exact min_le_min_right _ (nearestUnits_mono hd hd' scaled)

end Nearest

theorem round_zero (negative : Bool) {den : Nat} (hd : 0 < den) : round negative 0 den = ⟨negative, 0⟩ := by
  have fixed : nearestUnits (0 * unitsInOne) den = 0 :=
    nearestUnits_of_eq hd ⟨0, 0, Nat.zero_le _, rfl⟩ (by rw [Nat.zero_mul, Nat.zero_mul])
  rw [round_eq, fixed, Nat.zero_min]

theorem units_round_le (negative : Bool) (num den : Nat) : (round negative num den).units ≤ infiniteUnits :=
  min_le_right _ _

theorem exists_infiniteUnits_eq : ∃ exponent, infiniteUnits = 2 ^ exponent := ⟨2098, by decide +kernel⟩

theorem representable_units_round (negative : Bool) {num den : Nat} (hd : 0 < den) :
    Representable (round negative num den).units := by
  rw [round_eq]
  rcases min_choice (nearestUnits (num * unitsInOne) den) infiniteUnits with eq | eq <;> simp only [eq]
  · exact representable_nearestUnits hd
  · obtain ⟨exponent, infinite⟩ := exists_infiniteUnits_eq
    exact ⟨1, exponent, Nat.one_le_two_pow, by rw [infinite, Nat.one_mul]⟩

theorem signedUnits_of_negative {x : Binary64} (h : x.negative = true) : x.signedUnits = -x.units := if_pos h

theorem signedUnits_of_not_negative {x : Binary64} (h : x.negative = false) : x.signedUnits = x.units := by
  rw [signedUnits, h, if_neg Bool.false_ne_true]

theorem signedUnits_infinity : infinity.signedUnits = infiniteUnits := by
  rw [infinity, signedUnits_of_not_negative rfl]

theorem signedUnits_negInfinity : negInfinity.signedUnits = -infiniteUnits := by
  rw [negInfinity, signedUnits_of_negative rfl]

theorem negInfinity_le {x : Binary64} (h : x.units ≤ infiniteUnits) : negInfinity ≤ x := by
  rw [le_def, signedUnits_negInfinity]
  cases hx : x.negative with
  | false => rw [signedUnits_of_not_negative hx]; omega
  | true => rw [signedUnits_of_negative hx]; omega

theorem le_infinity {x : Binary64} (h : x.units ≤ infiniteUnits) : x ≤ infinity := by
  rw [le_def, signedUnits_infinity]
  cases hx : x.negative with
  | false => rw [signedUnits_of_not_negative hx]; omega
  | true => rw [signedUnits_of_negative hx]; omega

/-! ## Integers -/

theorem units_ofNat_mono {m n : Nat} (h : m ≤ n) : (ofNat m).units ≤ (ofNat n).units :=
  units_round_mono Nat.one_pos Nat.one_pos (Nat.mul_le_mul_right 1 h)

theorem representable_mul_unitsInOne {n : Nat} (h : n ≤ 2 ^ 53) : Representable (n * unitsInOne) := by
  obtain ⟨exponent, one⟩ := exists_unitsInOne_eq
  exact ⟨n, exponent, h, by rw [one]⟩

/-- The integers of 53 bits, and the next one, are numbers of the format. -/
theorem units_ofNat_of_le {n : Nat} (h : n ≤ 2 ^ 53) : (ofNat n).units = n * unitsInOne := by
  have large : 2 ^ 53 * unitsInOne ≤ infiniteUnits := by decide +kernel
  have fixed : nearestUnits (n * unitsInOne) 1 = n * unitsInOne :=
    nearestUnits_of_eq Nat.one_pos (representable_mul_unitsInOne h) (Nat.mul_one _).symm
  rw [ofNat, round_eq, fixed]
  exact min_eq_left (Nat.le_trans (Nat.mul_le_mul_right _ h) large)

theorem units_ofNat_pos {n : Nat} (h : 0 < n) : 0 < (ofNat n).units := by
  have one : (ofNat 1).units = 1 * unitsInOne := units_ofNat_of_le (by decide)
  have mono := units_ofNat_mono (m := 1) h
  have positive := unitsInOne_pos
  omega

theorem signedUnits_ofInt_of_neg {n : Int} (h : n < 0) : (ofInt n).signedUnits = -(ofNat n.natAbs).units :=
  signedUnits_of_negative (decide_eq_true h)

theorem signedUnits_ofInt_of_nonneg {n : Int} (h : 0 ≤ n) : (ofInt n).signedUnits = (ofNat n.natAbs).units :=
  signedUnits_of_not_negative (decide_eq_false (Int.not_lt_of_ge h))

theorem ofInt_le_ofInt {m n : Int} (h : m ≤ n) : ofInt m ≤ ofInt n := by
  rw [le_def]
  rcases lt_or_ge m 0 with hm | hm
  · rw [signedUnits_ofInt_of_neg hm]
    rcases lt_or_ge n 0 with hn | hn
    · have mono := units_ofNat_mono (m := n.natAbs) (n := m.natAbs) (by omega)
      rw [signedUnits_ofInt_of_neg hn]
      omega
    · rw [signedUnits_ofInt_of_nonneg hn]
      omega
  · have mono := units_ofNat_mono (m := m.natAbs) (n := n.natAbs) (by omega)
    rw [signedUnits_ofInt_of_nonneg hm, signedUnits_ofInt_of_nonneg (Int.le_trans hm h)]
    omega

theorem signedUnits_ofInt_of_le {n : Int} (h : n.natAbs ≤ 2 ^ 53) : (ofInt n).signedUnits = n * unitsInOne := by
  have scaled : ((ofNat n.natAbs).units : Int) = n.natAbs * unitsInOne := by
    rw [units_ofNat_of_le h, Int.natCast_mul]
  rcases lt_or_ge n 0 with hn | hn
  · rw [signedUnits_ofInt_of_neg hn, scaled, Int.ofNat_natAbs_of_nonpos (Int.le_of_lt hn), Int.neg_mul, Int.neg_neg]
  · rw [signedUnits_ofInt_of_nonneg hn, scaled, Int.natAbs_of_nonneg hn]

/-- An integer below `2 ^ 53` in magnitude is told apart from every other. -/
theorem ofInt_lt_ofInt {m n : Int} (h : m < n) (small : m.natAbs < 2 ^ 53 ∨ n.natAbs < 2 ^ 53) :
    (ofInt m).signedUnits < (ofInt n).signedUnits := by
  have positive : (0 : Int) < unitsInOne := Int.natCast_pos.mpr unitsInOne_pos
  rcases small with hm | hn
  · have next : ofInt (m + 1) ≤ ofInt n := ofInt_le_ofInt (Int.add_one_le_of_lt h)
    rw [le_def, signedUnits_ofInt_of_le (by omega)] at next
    rw [signedUnits_ofInt_of_le (Nat.le_of_lt hm)]
    rw [Int.add_mul, Int.one_mul] at next
    omega
  · have previous : ofInt m ≤ ofInt (n - 1) := ofInt_le_ofInt (Int.le_sub_one_of_lt h)
    rw [le_def, signedUnits_ofInt_of_le (n := n - 1) (by omega)] at previous
    rw [signedUnits_ofInt_of_le (Nat.le_of_lt hn)]
    rw [Int.sub_mul, Int.one_mul] at previous
    omega

theorem ofInt_le_ofInt_iff {m n : Int} (small : m.natAbs < 2 ^ 53 ∨ n.natAbs < 2 ^ 53) :
    ofInt m ≤ ofInt n ↔ m ≤ n := by
  refine ⟨fun h => ?_, ofInt_le_ofInt⟩
  rcases lt_or_ge n m with hlt | hle
  · exact absurd (ofInt_lt_ofInt hlt small.symm) (Int.not_lt_of_ge h)
  · exact hle

theorem ofInt_eq_ofInt_iff {m n : Int} : ofInt m = ofInt n ↔ (ofInt m).signedUnits = (ofInt n).signedUnits := by
  refine ⟨congrArg signedUnits, fun same => ?_⟩
  have sign : ∀ {k : Int}, k < 0 → 0 < (ofNat k.natAbs).units := fun hk => units_ofNat_pos (by omega)
  have parts : ∀ k : Int, ofInt k = ⟨decide (k < 0), (ofNat k.natAbs).units⟩ := fun _ => rfl
  rw [parts, parts, mk.injEq]
  rcases lt_or_ge m 0 with hm | hm <;> rcases lt_or_ge n 0 with hn | hn
  · rw [signedUnits_ofInt_of_neg hm, signedUnits_ofInt_of_neg hn] at same
    simp only [hm, hn, true_and]
    omega
  · have positive := sign hm
    rw [signedUnits_ofInt_of_neg hm, signedUnits_ofInt_of_nonneg hn] at same
    omega
  · have positive := sign hn
    rw [signedUnits_ofInt_of_nonneg hm, signedUnits_ofInt_of_neg hn] at same
    omega
  · rw [signedUnits_ofInt_of_nonneg hm, signedUnits_ofInt_of_nonneg hn] at same
    simp only [Int.not_lt_of_ge hm, Int.not_lt_of_ge hn, true_and]
    omega

/-- In the order of their nearest numbers, integers are in their own order, or they have the same nearest number. -/
theorem ofInt_le_ofInt_iff_or {m n : Int} : ofInt m ≤ ofInt n ↔ m ≤ n ∨ ofInt m = ofInt n := by
  constructor
  · intro h
    rcases lt_or_ge n m with hlt | hle
    · exact .inr (ofInt_eq_ofInt_iff.mpr (Int.le_antisymm h (ofInt_le_ofInt (Int.le_of_lt hlt))))
    · exact .inl hle
  · rintro (h | h)
    · exact ofInt_le_ofInt h
    · exact h ▸ le_refl _

/-- Different integers with the same nearest number are large. -/
theorem le_natAbs_of_ofInt_eq {m n : Int} (h : ofInt m = ofInt n) (hne : m ≠ n) :
    2 ^ 53 ≤ m.natAbs ∧ 2 ^ 53 ≤ n.natAbs := by
  have same := congrArg signedUnits h
  by_contra small
  have small : m.natAbs < 2 ^ 53 ∨ n.natAbs < 2 ^ 53 := by omega
  rcases Int.lt_or_gt_of_ne hne with hlt | hgt
  · exact Int.ne_of_lt (ofInt_lt_ofInt hlt small) same
  · exact Int.ne_of_gt (ofInt_lt_ofInt hgt small.symm) same

end BodySpec.Binary64
