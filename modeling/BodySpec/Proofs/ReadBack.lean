import BodySpec.Binary64.Shortest
import BodySpec.Proofs.Rounding

/-!
# The shortest decimal reads back

The decimal that a finite number is written with is rounded to the number (`round_shortest`). `Near` says that a
quotient of quarters of a unit lies in the interval that is rounded to a number, by inequalities without subtraction; a
quotient that is near is rounded to the number (`Near.nearestUnits_eq`).

A point that the search takes from a grid is near because the search has tested it (`near_of_onGrid?`). If no grid has
such a point, the last grid decides untested: its points are so close (`fine_lastGrid`) that the nearest one is near.
-/

namespace BodySpec.Binary64

/-- A number of the format: its units are representable and not those of infinity. -/
structure IsFinite (x : Binary64) : Prop where
  units_lt : x.units < infiniteUnits
  representable : Representable x.units

/-! ## Intervals -/

/-- The distance of the numbers around a number, in units. -/
def gap (x : Binary64) : Nat := 2 ^ spacing x.units

/-- `num / den` quarters of a unit are at most half a gap away, and half a gap only if the significand is even. Below a
power of two they are at most a quarter of a gap away. -/
structure Near (x : Binary64) (num den : Nat) : Prop where
  below : 4 * (x.units * den) < num + 2 * (x.gap * den) ∨
    (4 * (x.units * den) = num + 2 * (x.gap * den) ∧ x.units / x.gap % 2 = 0)
  above : num < 4 * (x.units * den) + 2 * (x.gap * den) ∨
    (num = 4 * (x.units * den) + 2 * (x.gap * den) ∧ x.units / x.gap % 2 = 0)
  belowPower : x.units / x.gap = 2 ^ 52 → 0 < spacing x.units → 4 * (x.units * den) ≤ num + x.gap * den

theorem gap_mul_pos (x : Binary64) {den : Nat} (hd : 0 < den) : 0 < x.gap * den :=
  Nat.mul_pos (Nat.two_pow_pos _) hd

/-- What the test of the search accepts is near. -/
theorem near_of_holds {x : Binary64} {num den : Nat} (hd : 0 < den) (h : x.interval.holds num den = true) :
    x.Near num den := by
  have positive := x.gap_mul_pos hd
  have interval : x.interval =
      ⟨4 * x.units - (if x.units / x.gap = 2 ^ 52 ∧ 0 < spacing x.units then x.gap else 2 * x.gap),
    4 * x.units + 2 * x.gap, x.units / x.gap % 2 = 0⟩ := rfl
  rw [interval, Interval.holds] at h
  simp only [Nat.sub_mul, Nat.add_mul, Nat.mul_assoc] at h
  split_ifs at h with closed power power <;> simp only [decide_eq_true_eq, Nat.mul_assoc] at h closed
  all_goals exact ⟨by omega, by omega, by omega⟩

theorem units_eq_mul_gap {x : Binary64} (hx : Representable x.units) : x.units = x.units / x.gap * x.gap :=
  (Nat.div_mul_cancel (representable_iff_dvd.mp hx)).symm

theorem significand_lt (x : Binary64) : x.units / x.gap < 2 ^ 53 := by
  rw [gap, Nat.div_lt_iff_lt_mul (Nat.two_pow_pos _), ← Nat.pow_add, Nat.add_comm]
  exact lt_two_pow_spacing x.units

theorem le_significand {x : Binary64} (h : 0 < spacing x.units) : 2 ^ 52 ≤ x.units / x.gap := by
  obtain ⟨t, ht⟩ : ∃ t, spacing x.units = t + 1 := Nat.exists_eq_succ_of_ne_zero (Nat.ne_zero_of_lt h)
  have large : 2 ^ (t + 53) ≤ x.units := two_pow_le_of_spacing (by omega)
  rw [gap, ht, Nat.le_div_iff_mul_le (Nat.two_pow_pos _), ← Nat.pow_add]
  exact Nat.le_trans (Nat.pow_le_pow_right (by decide) (by omega)) large

/-- What is less than a power of two by at most a quarter of the gap above is rounded to the power: on the finer grid
below, this is at most half a gap. -/
theorem nearestUnits_of_lt_power {t num den : Nat} (hd : 0 < den) (below : num < 2 ^ (t + 53) * (4 * den))
    (quarter : 2 ^ (t + 53) * (4 * den) ≤ num + 2 ^ (t + 1) * den) : nearestUnits num (4 * den) = 2 ^ (t + 53) := by
  have hd4 : 0 < 4 * den := Nat.mul_pos (by decide) hd
  have grid : spacing (num / (4 * den)) = t := by
    refine Nat.le_antisymm (spacing_le_iff.mpr ((Nat.div_lt_iff_lt_mul hd4).mpr below))
      (Nat.le_of_not_lt fun finer => ?_)
    obtain ⟨r, rfl⟩ : ∃ r, t = r + 1 := Nat.exists_eq_succ_of_ne_zero (Nat.ne_zero_of_lt finer)
    have farBelow : num < 2 ^ (r + 53) * (4 * den) :=
      (Nat.div_lt_iff_lt_mul hd4).mp (spacing_le_iff.mp (by omega))
    have double : 2 ^ (r + 1 + 53) * (4 * den) = 2 * (2 ^ (r + 53) * (4 * den)) := by ring
    have half : 2 ^ (r + 53) * (4 * den) = 2 ^ 53 * (2 ^ (r + 1 + 1) * den) := by ring
    omega
  have step : 4 * den * 2 ^ t = 2 * (2 ^ (t + 1) * den) := by ring
  have point : 2 ^ 53 * (4 * den * 2 ^ t) = 2 ^ (t + 53) * (4 * den) := by ring
  have rounded : roundQuotient num (4 * den * 2 ^ t) = 2 ^ 53 :=
    roundQuotient_eq (Nat.mul_pos hd4 (Nat.two_pow_pos t)) (by omega) (by omega)
  rw [nearestUnits, grid, rounded]
  ring

/-- What is near to a number is rounded to it. -/
theorem Near.nearestUnits_eq {x : Binary64} (hx : Representable x.units) {num den : Nat} (hd : 0 < den)
    (h : x.Near num den) : nearestUnits num (4 * den) = x.units := by
  have hd4 : 0 < 4 * den := Nat.mul_pos (by decide) hd
  have positive := x.gap_mul_pos hd
  obtain ⟨below, above, belowPower⟩ := h
  have units := units_eq_mul_gap hx
  have bits := significand_lt x
  have normal := le_significand (x := x)
  generalize x.units / x.gap = k at below above belowPower units bits normal
  have scaled : x.units * den = k * (x.gap * den) := by
    rw [← Nat.mul_assoc, ← units]
  have bound : ∀ s, spacing (num / (4 * den)) ≤ s → num < 2 ^ (s + 53) * (4 * den) := fun s hs =>
    (Nat.div_lt_iff_lt_mul hd4).mp (spacing_le_iff.mp hs)
  rcases Nat.lt_trichotomy (spacing (num / (4 * den))) (spacing x.units) with finer | same | coarser
  · -- the quotient is below a power of two, which is the number
    obtain ⟨t, ht⟩ : ∃ t, spacing x.units = t + 1 := Nat.exists_eq_succ_of_ne_zero (Nat.ne_zero_of_lt finer)
    have least : 2 ^ (t + 53) * (4 * den) = 4 * (2 ^ 52 * (x.gap * den)) := by rw [gap, ht]; ring
    have belowNum := bound t (by omega)
    have power : k = 2 ^ 52 := by
      refine Nat.le_antisymm (Nat.le_of_not_lt fun more => ?_) (normal (by omega))
      have next : (2 ^ 52 + 1) * (x.gap * den) ≤ k * (x.gap * den) := Nat.mul_le_mul_right _ more
      omega
    subst power
    have quarter := belowPower rfl (by omega)
    have number : x.units = 2 ^ (t + 53) := by rw [units, gap, ht]; ring
    rw [number]
    refine nearestUnits_of_lt_power hd belowNum ?_
    rw [← ht, ← gap, least]
    omega
  · have step : 4 * den * 2 ^ spacing x.units = 4 * (x.gap * den) := by rw [gap]; ring
    have point : k * (4 * den * 2 ^ spacing x.units) = 4 * (x.units * den) := by rw [step, scaled]; ring
    have rounded : roundQuotient num (4 * den * 2 ^ spacing x.units) = k :=
      roundQuotient_eq (Nat.mul_pos hd4 (Nat.two_pow_pos _)) (by omega) (by omega)
    rw [nearestUnits, same, rounded]
    exact units.symm
  · -- the quotient is less than the power of two at which the coarser grid begins
    have beyond : 2 ^ (spacing x.units + 53) * (4 * den) ≤ num :=
      (Nat.le_div_iff_mul_le hd4).mp (two_pow_le_of_spacing coarser)
    have last : (k + 1) * (x.gap * den) ≤ 2 ^ 53 * (x.gap * den) := Nat.mul_le_mul_right _ bits
    have power : 2 ^ (spacing x.units + 53) * (4 * den) = 4 * (2 ^ 53 * (x.gap * den)) := by rw [gap]; ring
    rw [Nat.succ_mul, ← scaled] at last
    omega

/-! ## The search -/

/-- The decimal is near to the number. -/
def NearDecimal (x : Binary64) (d : Decimal) : Prop :=
  x.Near (d.significand * (gridStep d.exponent).1) (gridStep d.exponent).2

theorem gridStep_pos (k : Int) : 0 < (gridStep k).1 ∧ 0 < (gridStep k).2 := by
  have four := Nat.mul_pos (by decide : 0 < 4) unitsInOne_pos
  rw [gridStep]
  split
  · exact ⟨by rw [Nat.mul_assoc]; exact Nat.mul_pos (Nat.pow_pos (by decide)) four, Nat.one_pos⟩
  · exact ⟨four, Nat.pow_pos (by decide)⟩

theorem roundQuotient_eq_or (num den : Nat) :
    roundQuotient num den = num / den ∨ roundQuotient num den = num / den + 1 := by
  rw [roundQuotient]
  split
  · exact .inl rfl
  · exact .inr rfl

theorem near_of_onGrid? {x : Binary64} {k : Int} {c : Nat} (h : x.onGrid? k = some c) : x.NearDecimal ⟨c, k⟩ := by
  refine near_of_holds (gridStep_pos k).2 ?_
  have tested := h
  simp only [onGrid?] at tested
  split at tested
  · rename_i _ below above
    obtain rfl := Option.some.inj tested
    rcases roundQuotient_eq_or (4 * x.units * (gridStep k).2) (gridStep k).1 with eq | eq <;> rw [eq]
    · exact below
    · exact above
  · rename_i _ below _
    exact Option.some.inj tested ▸ below
  · rename_i _ _ above
    exact Option.some.inj tested ▸ above
  · cases tested

/-- The points of a grid are less than half a gap apart. -/
def FineGrid (x : Binary64) (k : Int) : Prop := (gridStep k).1 < 2 * (x.gap * (gridStep k).2)

/-- The nearest point of a fine grid is near. -/
theorem FineGrid.near {x : Binary64} {k : Int} (h : x.FineGrid k) :
    x.NearDecimal ⟨roundQuotient (4 * x.units * (gridStep k).2) (gridStep k).1, k⟩ := by
  obtain ⟨atMost, atLeast⟩ := roundQuotient_within_half (4 * x.units * (gridStep k).2) (gridStep_pos k).1
  rw [FineGrid] at h
  generalize roundQuotient (4 * x.units * (gridStep k).2) (gridStep k).1 = c at atMost atLeast
  rw [Nat.mul_assoc] at atMost atLeast
  exact ⟨by simp only; omega, by simp only; omega, fun _ _ => by simp only; omega⟩

theorem near_searchGrids {x : Binary64} {tries : Nat} {k : Int} (h : x.FineGrid (k - tries)) :
    x.NearDecimal (x.searchGrids tries k) := by
  induction tries generalizing k with
  | zero => exact FineGrid.near (by simpa using h)
  | succ tries ih =>
    rw [searchGrids]
    split
    · rename_i c hc
      exact near_of_onGrid? hc
    · refine ih ?_
      have last : k - 1 - tries = k - (tries + 1 : Nat) := by omega
      rwa [last]

/-! ## The last grid -/

/-- The distance of the points on a grid, times a power of ten that makes it whole. -/
theorem gridStep_mul {k : Int} {e : Nat} (h : 0 ≤ k + e) :
    (gridStep k).1 * 10 ^ e = 4 * unitsInOne * 10 ^ (k + e).toNat * (gridStep k).2 := by
  rw [gridStep]
  split
  · rename_i nonneg
    have whole : (k + e).toNat = k.toNat + e := by omega
    change 10 ^ k.toNat * 4 * unitsInOne * 10 ^ e = 4 * unitsInOne * 10 ^ (k + e).toNat * 1
    rw [whole]
    ring
  · rename_i negative
    obtain ⟨r, hr⟩ : ∃ r, e = r + (-k).toNat := ⟨e - (-k).toNat, by omega⟩
    have whole : (k + e).toNat = r := by omega
    change 4 * unitsInOne * 10 ^ e = 4 * unitsInOne * 10 ^ (k + e).toNat * 10 ^ (-k).toNat
    rw [whole, hr]
    ring

theorem FineGrid.of_lt {x : Binary64} {k : Int} {e : Nat} (h : 0 ≤ k + e)
    (lt : 2 * unitsInOne * 10 ^ (k + e).toNat < x.gap * 10 ^ e) : x.FineGrid k := by
  refine Nat.lt_of_mul_lt_mul_right (a := 10 ^ e) ?_
  calc (gridStep k).1 * 10 ^ e = 2 * unitsInOne * 10 ^ (k + e).toNat * (2 * (gridStep k).2) := by
        rw [gridStep_mul h]; ring
    _ < x.gap * 10 ^ e * (2 * (gridStep k).2) :=
        Nat.mul_lt_mul_of_pos_right lt (Nat.mul_pos Nat.two_pos (gridStep_pos k).2)
    _ = 2 * (x.gap * (gridStep k).2) * 10 ^ e := by ring

/-- `59 · log₂ 10` is just below 196. -/
theorem ten_pow_le_two_pow {q m : Nat} (h : 100000 * q ≤ 30103 * m) (range : m ≤ 2000) :
    10 ^ q ≤ 2 ^ (m + 1) := by
  refine (Nat.pow_le_pow_iff_left (by decide : 59 ≠ 0)).mp ?_
  calc (10 ^ q) ^ 59 = (10 ^ 59) ^ q := pow_right_comm 10 q 59
    _ ≤ (2 ^ 196) ^ q := Nat.pow_le_pow_left (by decide) q
    _ = 2 ^ (196 * q) := (pow_mul 2 196 q).symm
    _ ≤ 2 ^ ((m + 1) * 59) := Nat.pow_le_pow_right Nat.two_pos (by omega)
    _ = (2 ^ (m + 1)) ^ 59 := pow_mul 2 (m + 1) 59

/-- `28 · log₂ 10` is just above 93. -/
theorem two_pow_le_ten_pow {n p : Nat} (h : 30103 * n ≤ 100000 * p) (range : n ≤ 2000) : 2 ^ n ≤ 2 * 10 ^ p := by
  refine (Nat.pow_le_pow_iff_left (by decide : 28 ≠ 0)).mp ?_
  calc (2 ^ n) ^ 28 = 2 ^ (n * 28) := (pow_mul 2 n 28).symm
    _ ≤ 2 ^ (28 + 93 * p) := Nat.pow_le_pow_right Nat.two_pos (by omega)
    _ = 2 ^ 28 * (2 ^ 93) ^ p := by rw [pow_add, pow_mul]
    _ ≤ 2 ^ 28 * (10 ^ 28) ^ p := Nat.mul_le_mul_left _ (Nat.pow_le_pow_left (by decide) p)
    _ = (2 * 10 ^ p) ^ 28 := by rw [mul_pow, pow_right_comm]

theorem log2_le_spacing (units : Nat) : units.log2 ≤ spacing units + 52 := by
  by_cases zero : units = 0
  · rw [zero, Nat.log2_zero]
    exact Nat.zero_le _
  · have bound := (Nat.log2_lt zero).mpr (lt_two_pow_spacing units)
    omega

theorem log2_lt_of_lt_infiniteUnits {units : Nat} (h : units < infiniteUnits) : units.log2 < 2098 := by
  obtain ⟨v, infinite, hv⟩ : ∃ v, infiniteUnits = 2 ^ v ∧ v = 2098 := ⟨2098, by decide +kernel, rfl⟩
  by_cases zero : units = 0
  · rw [zero, Nat.log2_zero]
    decide
  · rw [← hv]
    exact (Nat.log2_lt zero).mpr (infinite ▸ h)

/-- **The last grid that is tried is fine.** -/
theorem fine_lastGrid {x : Binary64} (h : x.units < infiniteUnits) : x.FineGrid (x.topGrid - (21 : Nat)) := by
  obtain ⟨w, one, hw⟩ : ∃ w, unitsInOne = 2 ^ w ∧ w = 1074 := ⟨1074, by decide +kernel, rfl⟩
  have near := log2_le_spacing x.units
  have range := log2_lt_of_lt_infiniteUnits h
  have slack : 2 ^ 56 < 10 ^ 20 := by decide
  have gapPos : 0 < 2 ^ spacing x.units := Nat.two_pow_pos _
  rw [topGrid]
  rcases lt_or_ge (x.units.log2 : Int) 1072 with small | large
  · obtain ⟨p, hp⟩ : ∃ p : Nat, ((x.units.log2 : Int) - 1072) * 30103 / 100000 = -p :=
      ⟨(-(((x.units.log2 : Int) - 1072) * 30103 / 100000)).toNat, by omega⟩
    have power := two_pow_le_ten_pow (n := 1072 - x.units.log2) (p := p) (by omega) (by omega)
    rw [hp]
    refine FineGrid.of_lt (e := p + 20) (by omega) ?_
    have whole : (-(p : Int) + 1 - (21 : Nat) + (p + 20 : Nat)).toNat = 0 := by omega
    rw [whole, one, gap, pow_zero, Nat.mul_one]
    refine Nat.lt_of_mul_lt_mul_left (a := 2) ?_
    calc 2 * (2 * 2 ^ w) = 2 ^ (w + 2) := by ring
      _ ≤ 2 ^ (spacing x.units + (1072 - x.units.log2) + 56) := Nat.pow_le_pow_right Nat.two_pos (by omega)
      _ = 2 ^ spacing x.units * 2 ^ (1072 - x.units.log2) * 2 ^ 56 := by rw [pow_add, pow_add]
      _ < 2 ^ spacing x.units * 2 ^ (1072 - x.units.log2) * 10 ^ 20 :=
        Nat.mul_lt_mul_of_pos_left slack (Nat.mul_pos gapPos (Nat.two_pow_pos _))
      _ ≤ 2 ^ spacing x.units * (2 * 10 ^ p) * 10 ^ 20 := Nat.mul_le_mul_right _ (Nat.mul_le_mul_left _ power)
      _ = 2 * (2 ^ spacing x.units * 10 ^ (p + 20)) := by ring
  · obtain ⟨q, hq⟩ : ∃ q : Nat, ((x.units.log2 : Int) - 1072) * 30103 / 100000 = q :=
      ⟨(((x.units.log2 : Int) - 1072) * 30103 / 100000).toNat, by omega⟩
    have power := ten_pow_le_two_pow (q := q) (m := x.units.log2 - 1072) (by omega) (by omega)
    rw [hq]
    refine FineGrid.of_lt (e := 20) (by omega) ?_
    have whole : ((q : Int) + 1 - (21 : Nat) + (20 : Nat)).toNat = q := by omega
    rw [whole, one, gap]
    calc 2 * 2 ^ w * 10 ^ q ≤ 2 * 2 ^ w * 2 ^ (x.units.log2 - 1072 + 1) := Nat.mul_le_mul_left _ power
      _ = 2 ^ (w + 1 + (x.units.log2 - 1072 + 1)) := by rw [pow_add 2 (w + 1), pow_succ 2 w, Nat.mul_comm 2 (2 ^ w)]
      _ ≤ 2 ^ (spacing x.units + 56) := Nat.pow_le_pow_right Nat.two_pos (by omega)
      _ = 2 ^ spacing x.units * 2 ^ 56 := pow_add 2 _ 56
      _ < 2 ^ spacing x.units * 10 ^ 20 := Nat.mul_lt_mul_of_pos_left slack gapPos

theorem nearestUnits_shortest {x : Binary64} (hx : x.IsFinite) {e : Nat} (h : 0 ≤ x.shortest.exponent + e) :
    nearestUnits (x.shortest.significand * 10 ^ (x.shortest.exponent + e).toNat * unitsInOne) (10 ^ e) = x.units := by
  have near : x.NearDecimal x.shortest := near_searchGrids (fine_lastGrid hx.units_lt)
  have step := (gridStep_pos x.shortest.exponent).2
  rw [← near.nearestUnits_eq hx.representable step]
  refine nearestUnits_congr (Nat.pow_pos (by decide)) (Nat.mul_pos (by decide) step) ?_
  calc x.shortest.significand * 10 ^ (x.shortest.exponent + e).toNat * unitsInOne *
        (4 * (gridStep x.shortest.exponent).2)
      = x.shortest.significand *
          (4 * unitsInOne * 10 ^ (x.shortest.exponent + e).toNat * (gridStep x.shortest.exponent).2) := by ring
    _ = x.shortest.significand * (gridStep x.shortest.exponent).1 * 10 ^ e := by rw [← gridStep_mul h]; ring

/-- **The shortest decimal reads back**, with its power of ten made whole in any way. -/
theorem round_shortest {x : Binary64} (hx : x.IsFinite) {e : Nat} (h : 0 ≤ x.shortest.exponent + e) :
    round x.negative (x.shortest.significand * 10 ^ (x.shortest.exponent + e).toNat) (10 ^ e) = x := by
  rw [round_eq, nearestUnits_shortest hx h, min_eq_left (Nat.le_of_lt hx.units_lt)]

end BodySpec.Binary64
