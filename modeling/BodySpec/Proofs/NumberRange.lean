import BodySpec.Json.Reader
import BodySpec.Proofs.ReadBack

/-!
# The numbers that are read

A JSON number is an integer of the 64-bit ranges or a finite number of the format (`Number.InRange`). The types do not
say so, but every numeral that has a value has one in range (`Numeral.inRange_of_value?`): an integer is read from a
significand of 64 bits, a quotient by a power of ten is not above the number divided, and a product beyond the range is
refused. So all numbers in a body that is read are in range, at any depth (`Json.inRange_of_ofBytes?`).
-/

namespace BodySpec

/-- An integer of the 64-bit ranges, or a number of the format other than infinity. -/
def Number.InRange : Number → Prop
  | .int n => -2 ^ 63 ≤ n ∧ n < 2 ^ 64
  | .float x => x.IsFinite

namespace Binary64

theorem isFinite_round {negative : Bool} {num den : Nat} (hd : 0 < den)
    (h : (round negative num den).isInfinite = false) : (round negative num den).IsFinite where
  units_lt := Nat.lt_of_le_of_ne (units_round_le negative num den) (beq_eq_false_iff_ne.mp h)
  representable := representable_units_round negative hd

theorem isFinite_ofNat {n : Nat} (h : n < 2 ^ 64) : (ofNat n).IsFinite where
  units_lt := Nat.lt_of_le_of_lt (units_ofNat_mono (Nat.le_of_lt h)) (by decide +kernel)
  representable := representable_units_round false Nat.one_pos

theorem IsFinite.neg {x : Binary64} (hx : x.IsFinite) : (-x).IsFinite := ⟨hx.units_lt, hx.representable⟩

theorem IsFinite.div_powerOfTen {x : Binary64} (hx : x.IsFinite) (n : Nat) : (x / powerOfTen n).IsFinite := by
  have one : unitsInOne ≤ (powerOfTen n).units := by
    have mono := units_ofNat_mono (Nat.one_le_pow n 10 (by decide))
    rwa [units_ofNat_of_le (by decide), Nat.one_mul] at mono
  have positive : 0 < (powerOfTen n).units := Nat.lt_of_lt_of_le unitsInOne_pos one
  have notAbove : (x / powerOfTen n).units ≤ x.units := by
    refine Nat.le_trans (min_le_left _ _) (nearestUnits_le positive hx.representable ?_)
    exact Nat.mul_le_mul_left x.units one
  exact ⟨Nat.lt_of_le_of_lt notAbove hx.units_lt, representable_units_round _ positive⟩

end Binary64

namespace Numeral

open Binary64

theorem absorb_lt {significand : Nat} (h : significand < 2 ^ 64) (ds : List Nat) :
    (absorb significand ds).1 < 2 ^ 64 := by
  induction ds generalizing significand with
  | nil => exact h
  | cons d ds ih =>
    rw [absorb]
    split
    · rename_i fits
      exact ih fits
    · exact h

theorem inRange_ofMagnitude (negative : Bool) {n : Nat} (h : n < 2 ^ 64) : (ofMagnitude negative n).InRange := by
  have two : Nat.pow 2 63 = 2 ^ 63 := rfl
  rw [ofMagnitude, two]
  split
  · split
    · rename_i small
      exact ⟨by omega, by omega⟩
    · exact (isFinite_ofNat h).neg
  · exact ⟨by omega, by omega⟩

theorem isFinite_divideByPower {x : Binary64} (hx : x.IsFinite) (n : Nat) : (divideByPower x n).IsFinite := by
  rw [divideByPower]
  split
  · exact hx.div_powerOfTen n
  · split
    · exact (hx.div_powerOfTen 308).div_powerOfTen (n - 308)
    · exact ⟨Nat.lt_of_le_of_lt (Nat.zero_le _) hx.units_lt, 0, 0, Nat.zero_le _, rfl⟩

theorem isFinite_of_scale? {x y : Binary64} {e : Int} (hx : x.IsFinite) (h : scale? x e = some y) : y.IsFinite := by
  rw [scale?] at h
  split at h
  · exact Option.some.inj h ▸ isFinite_divideByPower hx _
  · split at h
    · exact Option.some.inj h ▸ hx
    · split at h
      · simp only at h
        split at h
        · cases h
        · rename_i finite
          have positive : 0 < unitsInOne * unitsInOne := Nat.mul_pos unitsInOne_pos unitsInOne_pos
          exact Option.some.inj h ▸ isFinite_round positive (Bool.not_eq_true _ ▸ finite)
      · cases h

theorem isFinite_applySign {x : Binary64} (hx : x.IsFinite) (negative : Bool) : (applySign negative x).IsFinite := by
  cases negative with
  | false => exact hx
  | true => exact hx.neg

/-- **A numeral is read to a number in range.** -/
theorem inRange_of_value? {n : Numeral} {v : Number} (h : n.value? = some v) : v.InRange := by
  rw [value?] at h
  have high := absorb_lt (by decide : 0 < 2 ^ 64) n.whole
  generalize absorb 0 n.whole = whole at h high
  simp only at h
  split at h
  · exact Option.some.inj h ▸ inRange_ofMagnitude n.negative high
  · obtain ⟨x, scaled, rfl⟩ := Option.map_eq_some_iff.mp h
    exact isFinite_applySign (isFinite_of_scale? (isFinite_ofNat (absorb_lt high n.fraction)) scaled) n.negative

end Numeral

/-! ## Values -/

/-- All numbers in a value are in range. -/
inductive Json.InRange : Json → Prop
  | null : InRange .null
  | bool (b : Bool) : InRange (.bool b)
  | number {v : Number} : v.InRange → InRange (.number v)
  | string (s : String) : InRange (.string s)
  | array {items : List Json} : (∀ v ∈ items, InRange v) → InRange (.array items)
  | object {members : Json.Members} : (∀ m ∈ members, InRange m.2) → InRange (.object members)

namespace Json.Members

variable {P : Json → Prop}

theorem forall_mem_insert {key : String} {value : Json} {members : Members} (hv : P value)
    (h : ∀ m ∈ members, P m.2) : ∀ m ∈ insert key value members, P m.2 := by
  induction members with
  | nil => exact List.forall_mem_singleton.mpr hv
  | cons m rest ih =>
    obtain ⟨hm, hrest⟩ := List.forall_mem_cons.mp h
    rw [insert]
    split
    · exact List.forall_mem_cons.mpr ⟨hv, h⟩
    · split
      · exact List.forall_mem_cons.mpr ⟨hv, hrest⟩
      · exact List.forall_mem_cons.mpr ⟨hm, ih hrest⟩

/-- An object that is made of a list of members has no values but theirs. -/
theorem forall_mem_ofList {pairs : List (String × Json)} (h : ∀ p ∈ pairs, P p.2) :
    ∀ m ∈ ofList pairs, P m.2 := by
  refine List.foldlRecOn (motive := fun members : Members => ∀ m ∈ members, P m.2) pairs _
    (List.forall_mem_nil _) ?_
  exact fun members kept p hp => forall_mem_insert (h p hp) kept

end Json.Members

namespace Written

mutual

theorem inRange_of_value? : ∀ {w : Written} {v : Json}, w.value? = some v → v.InRange
  | .null, _, h => Option.some.inj h ▸ .null
  | .bool b, _, h => Option.some.inj h ▸ .bool b
  | .numeral _, _, h => by
    obtain ⟨v, hv, rfl⟩ := Option.map_eq_some_iff.mp h
    exact .number (Numeral.inRange_of_value? hv)
  | .string _, _, h => by
    obtain ⟨s, _, rfl⟩ := Option.map_eq_some_iff.mp h
    exact .string s
  | .array _, _, h => by
    obtain ⟨_, hitems, rfl⟩ := Option.map_eq_some_iff.mp h
    exact .array (inRange_of_itemValues? hitems)
  | .object _, _, h => by
    obtain ⟨_, hmembers, rfl⟩ := Option.map_eq_some_iff.mp h
    exact .object (Json.Members.forall_mem_ofList (inRange_of_memberValues? hmembers))

theorem inRange_of_itemValues? : ∀ {ws : List Written} {vs : List Json},
    itemValues? ws = some vs → ∀ v ∈ vs, v.InRange
  | [], _, h => Option.some.inj h ▸ List.forall_mem_nil _
  | _ :: _, _, h => by
    obtain ⟨v, hv, h⟩ := Option.bind_eq_some_iff.mp h
    obtain ⟨vs, hvs, h⟩ := Option.bind_eq_some_iff.mp h
    cases h
    exact List.forall_mem_cons.mpr ⟨inRange_of_value? hv, inRange_of_itemValues? hvs⟩

theorem inRange_of_memberValues? : ∀ {ms : List (List TextUnit × Written)} {pairs : List (String × Json)},
    memberValues? ms = some pairs → ∀ p ∈ pairs, p.2.InRange
  | [], _, h => Option.some.inj h ▸ List.forall_mem_nil _
  | (_, _) :: _, _, h => by
    obtain ⟨key, _, h⟩ := Option.bind_eq_some_iff.mp h
    obtain ⟨v, hv, h⟩ := Option.bind_eq_some_iff.mp h
    obtain ⟨pairs, hpairs, h⟩ := Option.bind_eq_some_iff.mp h
    cases h
    exact List.forall_mem_cons.mpr ⟨inRange_of_value? hv, inRange_of_memberValues? hpairs⟩

end

end Written

/-- **All numbers in a body that is read are in range.** -/
theorem Json.inRange_of_ofBytes? {bytes : ByteArray} {body : Json} (h : Json.ofBytes? bytes = some body) :
    body.InRange := by
  obtain ⟨_, _, hr⟩ := Option.bind_eq_some_iff.mp h
  obtain ⟨_, _, hw⟩ := Option.bind_eq_some_iff.mp hr
  exact Written.inRange_of_value? hw

end BodySpec
